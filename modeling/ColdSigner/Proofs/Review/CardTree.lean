import ColdSigner.Review.Card

/-! Trees of cards.

`Card.listed` lists the cards of a tree as they are read, parents before children.
`Laid` describes cards that stand side by side: their own bytes and those of all
cards below them follow each other without gap, and each level stands one indent
deeper than the one above. Cards laid one after another, or below a head, are laid. -/
namespace ColdSigner

mutual

/-- A card and the cards below it, parents before children. -/
def Card.listed : Card → List Card
  | ⟨kind, value, indent, span, children⟩ =>
    ⟨kind, value, indent, span, children⟩ :: Card.allListed children

/-- Cards and all that stand below them. -/
def Card.allListed : List Card → List Card
  | [] => []
  | c :: rest => c.listed ++ Card.allListed rest

end

namespace Card

@[simp] theorem allListed_nil : allListed [] = [] := by rw [allListed]

@[simp] theorem allListed_cons (c : Card) (rest : List Card) :
    allListed (c :: rest) = c :: (allListed c.children ++ allListed rest) := by
  rw [allListed]
  cases c
  rw [listed, List.cons_append]

@[simp] theorem allListed_append (a b : List Card) :
    allListed (a ++ b) = allListed a ++ allListed b := by
  induction a with
  | nil => rw [List.nil_append, allListed_nil, List.nil_append]
  | cons c rest ih => simp [ih]

mutual

theorem toList_addSpans (acc : Array Span) :
    (c : Card) → (c.addSpans acc).toList = acc.toList ++ c.listed.map (·.span)
  | ⟨_, _, _, span, children⟩ => by
    rw [addSpans, toList_addAllSpans (acc.push span) children, listed]
    simp

theorem toList_addAllSpans (acc : Array Span) :
    (cards : List Card) →
      (addAllSpans acc cards).toList = acc.toList ++ (allListed cards).map (·.span)
  | [] => by simp [addAllSpans]
  | c :: rest => by
    rw [addAllSpans, toList_addAllSpans (c.addSpans acc) rest, toList_addSpans acc c, allListed]
    simp

end

theorem spans_eq (cards : List Card) : spans cards = (allListed cards).map (·.span) :=
  toList_addAllSpans #[] cards

end Card

theorem Span.tile_append {start middle stop : Nat} {a b : List Span}
    (ha : Span.tile start middle a = true) (hb : Span.tile middle stop b = true) :
    Span.tile start stop (a ++ b) = true := by
  induction a generalizing start with
  | nil =>
    obtain rfl : start = middle := by simpa [tile] using ha
    exact hb
  | cons s rest ih =>
    simp only [tile, Bool.and_eq_true] at ha
    simp only [List.cons_append, tile, Bool.and_eq_true]
    exact ⟨ha.1, ih ha.2⟩

/-- The cards of a whole payload stand at indent 0, and each below another one deeper. -/
structure Card.WellIndented (cards : List Card) : Prop where
  roots : ∀ c ∈ cards, c.indent = 0
  children : ∀ c ∈ Card.allListed cards, ∀ d ∈ c.children, d.indent = c.indent + 1

/-- Cards at `indent` that show the bytes from `start` to `stop`. -/
structure Laid (indent start stop : Nat) (cards : List Card) : Prop where
  tile : Span.tile start stop (Card.spans cards) = true
  level : ∀ c ∈ cards, c.indent = indent
  children : ∀ c ∈ Card.allListed cards, ∀ d ∈ c.children, d.indent = c.indent + 1

namespace Laid

variable {indent start middle stop : Nat} {cards : List Card}

theorem nil : Laid indent start start [] where
  tile := by simp [Card.spans_eq, Span.tile]
  level := by simp
  children := by simp

theorem append {a b : List Card} (ha : Laid indent start middle a) (hb : Laid indent middle stop b) :
    Laid indent start stop (a ++ b) where
  tile := by
    have h := Span.tile_append ha.tile hb.tile
    rwa [Card.spans_eq, Card.spans_eq, ← List.map_append, ← Card.allListed_append,
      ← Card.spans_eq] at h
  level c hc := (List.mem_append.1 hc).elim (ha.level c) (hb.level c)
  children c hc := by
    rw [Card.allListed_append] at hc
    exact (List.mem_append.1 hc).elim (ha.children c) (hb.children c)

theorem cons {c : Card} (hc : Laid indent start middle [c]) (h : Laid indent middle stop cards) :
    Laid indent start stop (c :: cards) :=
  hc.append h

/-- A card with its own bytes in front of those of its children. -/
theorem card {kind : CardKind} {value : String} (hle : start ≤ middle)
    (h : Laid (indent + 1) middle stop cards) :
    Laid indent start stop [⟨kind, value, indent, ⟨start, middle⟩, cards⟩] where
  tile := by
    have ht := h.tile
    rw [Card.spans_eq] at ht
    simpa [Card.spans_eq, Span.tile, hle] using ht
  level := by simp
  children := by
    simp only [Card.allListed_cons, Card.allListed_nil, List.append_nil, List.mem_cons,
      forall_eq_or_imp]
    exact ⟨h.level, h.children⟩

/-- A card without children. -/
theorem leaf {kind : CardKind} {value : String} (hle : start ≤ stop) :
    Laid indent start stop [⟨kind, value, indent, ⟨start, stop⟩, []⟩] :=
  card hle nil

theorem covers {length : Nat} (h : Laid indent 0 length cards) : Card.covers cards length = true :=
  h.tile

theorem wellIndented (h : Laid 0 start stop cards) : Card.WellIndented cards :=
  ⟨h.level, h.children⟩

end Laid

end ColdSigner
