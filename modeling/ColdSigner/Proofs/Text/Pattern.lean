import Mathlib.Data.List.Basic

/-! Patterns in texts.

A pattern may match the front of a text in several ways. `ways` lists them in the order in
which they are tried: what is optional is taken rather than left, and what may be repeated is
repeated as often as it goes. The first of them is the match that is found, and `findAll`
looks for matches from left to right. Of a match that is found the `first?` lemmas say what
it is, one for each form of pattern, and `taken_append_rest` and `taken_many` what holds of
every way. -/
namespace ColdSigner.Text

/-- A match at the front of a text: what it takes, what the groups take of that, and what
is left. -/
structure Match where
  taken : List Char
  groups : List (String × List Char)
  rest : List Char

namespace Match

/-- Nothing is taken. -/
def nothing (s : List Char) : Match := ⟨[], [], s⟩

/-- A match, and another one behind it. -/
def followedBy (m m' : Match) : Match := ⟨m.taken ++ m'.taken, m.groups ++ m'.groups, m'.rest⟩

/-- All that is taken belongs to a group. -/
def inGroup (name : String) (m : Match) : Match := { m with groups := (name, m.taken) :: m.groups }

/-- What a group takes, the last time if it takes something several times. -/
def group? (m : Match) (name : String) : Option (List Char) := m.groups.reverse.lookup name

end Match

inductive Pattern where
  /-- One character. -/
  | one (accepts : Char → Bool)
  /-- The end of the text. -/
  | ending
  | seq (a b : Pattern)
  | optional (a : Pattern)
  /-- Any number of times. -/
  | many (a : Pattern)
  | group (name : String) (a : Pattern)

namespace Pattern

/-- At least once. -/
def many1 (a : Pattern) : Pattern := a.seq a.many

/-- The ways to match `a` again and again, each time taking something. -/
def repeated (a : List Char → List Match) : Nat → List Char → List Match
  | 0, s => [.nothing s]
  | n + 1, s =>
    ((a s).filter fun m => !m.taken.isEmpty).flatMap (fun m => (repeated a n m.rest).map m.followedBy)
      ++ [.nothing s]

/-- The ways to match the front of a text, in the order in which they are tried. -/
def ways : Pattern → List Char → List Match
  | one accepts, s =>
    match s with
    | [] => []
    | c :: rest => if accepts c then [⟨[c], [], rest⟩] else []
  | ending, s => if s.isEmpty then [.nothing s] else []
  | seq a b, s => (a.ways s).flatMap fun m => (b.ways m.rest).map m.followedBy
  | optional a, s => a.ways s ++ [.nothing s]
  -- each time takes a character or more, so there are no more times than characters
  | many a, s => repeated a.ways s.length s
  | group name a, s => (a.ways s).map (·.inGroup name)

/-- The match that is found at the front of a text. -/
def first? (a : Pattern) (s : List Char) : Option Match := (a.ways s).head?

/-- The matches that are found from left to right, behind so many characters. -/
def findAllFrom (a : Pattern) : Nat → List Char → List Match
  | _, [] => []
  | k + 1, _ :: rest => findAllFrom a k rest
  | 0, c :: rest =>
    match a.first? (c :: rest) with
    | some m => m :: findAllFrom a (m.taken.length - 1) rest
    | none => findAllFrom a 0 rest

/-- The matches of a pattern that always takes something, from left to right. None of them
starts within another one. -/
def findAll (a : Pattern) (s : List Char) : List Match := findAllFrom a 0 s

variable {a b : Pattern} {m m' : Match} {s : List Char}

/-! ### What holds of every way -/

theorem mem_ways_one {p : Char → Bool} :
    m ∈ (one p).ways s ↔ ∃ c rest, s = c :: rest ∧ p c = true ∧ m = ⟨[c], [], rest⟩ := by
  cases s with
  | nil => simp [ways]
  | cons c rest =>
    by_cases hc : p c = true
    · simp [ways, hc]
    · simp [ways, hc]

theorem mem_ways_ending : m ∈ ending.ways s ↔ s = [] ∧ m = .nothing [] := by
  cases s with
  | nil => simp [ways]
  | cons c rest => simp [ways]

theorem mem_ways_seq :
    m ∈ (seq a b).ways s ↔ ∃ x ∈ a.ways s, ∃ y ∈ b.ways x.rest, x.followedBy y = m := by
  simp [ways]

theorem mem_ways_optional : m ∈ (optional a).ways s ↔ m ∈ a.ways s ∨ m = .nothing s := by
  simp [ways]

theorem mem_ways_group {name : String} :
    m ∈ (group name a).ways s ↔ ∃ x ∈ a.ways s, x.inGroup name = m := by
  simp [ways]

theorem mem_repeated_succ {f : List Char → List Match} {n : Nat} :
    m ∈ repeated f (n + 1) s ↔
      (∃ x ∈ f s, x.taken ≠ [] ∧ ∃ y ∈ repeated f n x.rest, x.followedBy y = m) ∨
        m = .nothing s := by
  simp [repeated, and_assoc]

theorem append_of_followedBy {x y : Match} (hx : x.taken ++ x.rest = s)
    (hy : y.taken ++ y.rest = x.rest) :
    (x.followedBy y).taken ++ (x.followedBy y).rest = s := by
  show x.taken ++ y.taken ++ y.rest = s
  rw [List.append_assoc, hy, hx]

theorem append_of_mem_repeated {f : List Char → List Match} {n : Nat}
    (hf : ∀ s, ∀ m ∈ f s, m.taken ++ m.rest = s) (h : m ∈ repeated f n s) :
    m.taken ++ m.rest = s := by
  induction n generalizing m s with
  | zero =>
    obtain rfl := List.mem_singleton.1 h
    rfl
  | succ n ih =>
    obtain ⟨x, hx, -, y, hy, rfl⟩ | rfl := mem_repeated_succ.1 h
    · exact append_of_followedBy (hf _ _ hx) (ih hy)
    · rfl

/-- What is taken and what is left make up the text. -/
theorem taken_append_rest (h : m ∈ a.ways s) : m.taken ++ m.rest = s := by
  induction a generalizing m s with
  | one p =>
    obtain ⟨c, rest, rfl, -, rfl⟩ := mem_ways_one.1 h
    rfl
  | ending =>
    obtain ⟨rfl, rfl⟩ := mem_ways_ending.1 h
    rfl
  | seq a b iha ihb =>
    obtain ⟨x, hx, y, hy, rfl⟩ := mem_ways_seq.1 h
    exact append_of_followedBy (iha hx) (ihb hy)
  | optional a ih =>
    obtain hx | rfl := mem_ways_optional.1 h
    · exact ih hx
    · rfl
  | many a ih => exact append_of_mem_repeated (fun _ _ => ih) h
  | group name a ih =>
    obtain ⟨x, hx, rfl⟩ := mem_ways_group.1 h
    exact ih (m := x) hx

/-- What a repetition takes is made up of what is taken each time. -/
theorem taken_many {P : List Char → Prop} (nil : P [])
    (append : ∀ s, ∀ x ∈ a.ways s, ∀ t, P t → P (x.taken ++ t)) (h : m ∈ a.many.ways s) :
    P m.taken := by
  have hrepeated (n : Nat) : ∀ s, ∀ m ∈ repeated a.ways n s, P m.taken := by
    induction n with
    | zero =>
      intro s m hm
      obtain rfl := List.mem_singleton.1 hm
      exact nil
    | succ n ih =>
      intro s m hm
      obtain ⟨x, hx, -, y, hy, rfl⟩ | rfl := mem_repeated_succ.1 hm
      · exact append s x hx _ (ih _ _ hy)
      · exact nil
  exact hrepeated _ s m h

theorem taken_many_one {p : Char → Bool} (h : m ∈ (one p).many.ways s) :
    ∀ c ∈ m.taken, p c = true := by
  refine taken_many (P := fun t => ∀ c ∈ t, p c = true) nofun (fun s x hx t ht => ?_) h
  obtain ⟨c, rest, -, hc, rfl⟩ := mem_ways_one.1 hx
  exact List.forall_mem_cons.2 ⟨hc, ht⟩

/-- One or more characters that are accepted. -/
theorem taken_many1_one {p : Char → Bool} (h : m ∈ (one p).many1.ways s) :
    m.taken ≠ [] ∧ ∀ c ∈ m.taken, p c = true := by
  obtain ⟨x, hx, y, hy, rfl⟩ := mem_ways_seq.1 h
  obtain ⟨c, rest, -, hc, rfl⟩ := mem_ways_one.1 hx
  exact ⟨List.cons_ne_nil _ _, List.forall_mem_cons.2 ⟨hc, taken_many_one hy⟩⟩

/-! ### A repetition, one time after the other -/

section
variable {f : List Char → List Match} (hf : ∀ s, ∀ m ∈ f s, m.taken ++ m.rest = s)
include hf

/-- What is left behind a match that takes something is shorter. -/
theorem length_rest_lt (h : m ∈ (f s).filter fun m => !m.taken.isEmpty) :
    m.rest.length < s.length := by
  obtain ⟨hmem, hne⟩ := List.mem_filter.1 h
  have hpos : 0 < m.taken.length := List.length_pos_iff.2 (by simpa using hne)
  rw [← hf s m hmem, List.length_append]
  omega

theorem repeated_nil (n : Nat) : repeated f n [] = [.nothing []] := by
  cases n with
  | zero => rfl
  | succ n =>
    have hnone : ((f []).filter fun m => !m.taken.isEmpty) = [] :=
      List.eq_nil_iff_forall_not_mem.2 fun m hm => Nat.not_lt_zero _ (length_rest_lt hf hm)
    rw [repeated, hnone]
    rfl

/-- No repetition takes a text more often than the text has characters. -/
theorem repeated_of_le {n k : Nat} (hn : s.length ≤ n) (hk : s.length ≤ k) :
    repeated f n s = repeated f k s := by
  induction n generalizing k s with
  | zero =>
    obtain rfl := List.length_eq_zero_iff.1 (Nat.le_zero.1 hn)
    exact (repeated_nil hf k).symm
  | succ n ih =>
    cases k with
    | zero =>
      obtain rfl := List.length_eq_zero_iff.1 (Nat.le_zero.1 hk)
      exact repeated_nil hf _
    | succ k =>
      rw [repeated, repeated]
      congr 1
      refine List.flatMap_congr fun m hm => ?_
      have hlt := length_rest_lt hf hm
      rw [ih (k := k) (by omega) (by omega)]

end

/-- The repeated pattern takes something and is repeated behind it, or it is left. -/
theorem ways_many (a : Pattern) (s : List Char) :
    a.many.ways s =
      ((a.ways s).filter fun m => !m.taken.isEmpty).flatMap
          (fun m => (a.many.ways m.rest).map m.followedBy) ++ [.nothing s] := by
  have hsplit : ∀ s, ∀ m ∈ a.ways s, m.taken ++ m.rest = s := fun _ _ => taken_append_rest
  rw [ways, repeated_of_le hsplit (Nat.le_refl _) (Nat.le_succ _), repeated]
  congr 1
  refine List.flatMap_congr fun m hm => ?_
  rw [ways, repeated_of_le hsplit (Nat.le_of_lt (length_rest_lt hsplit hm)) (Nat.le_refl _)]

/-! ### The match that is found -/

theorem head?_flatMap_map {f : Match → List Match} {ms : List Match} {g : Match → Match → Match}
    (h : ms.head? = some m) (h' : (f m).head? = some m') :
    (ms.flatMap fun m => (f m).map (g m)).head? = some (g m m') := by
  obtain ⟨ms, rfl⟩ := List.head?_eq_some_iff.1 h
  obtain ⟨ms', hms'⟩ := List.head?_eq_some_iff.1 h'
  rw [List.flatMap_cons, hms']
  rfl

theorem first?_eq_none : a.first? s = none ↔ a.ways s = [] := List.head?_eq_none_iff

theorem first?_one_cons {p : Char → Bool} {c : Char} (h : p c = true) :
    (one p).first? (c :: s) = some ⟨[c], [], s⟩ := by
  simp [first?, ways, h]

theorem first?_one_eq_none {p : Char → Bool} (h : ∀ c ∈ s.head?, p c = false) :
    (one p).first? s = none := by
  cases s with
  | nil => rfl
  | cons c rest => simp [first?, ways, h c rfl]

theorem first?_ending : ending.first? [] = some (.nothing []) := rfl

theorem first?_seq (h : a.first? s = some m) (h' : b.first? m.rest = some m') :
    (seq a b).first? s = some (m.followedBy m') :=
  head?_flatMap_map h h'

theorem first?_seq_eq_none (h : ∀ m ∈ a.ways s, b.first? m.rest = none) :
    (seq a b).first? s = none := by
  rw [first?_eq_none]
  refine List.flatMap_eq_nil_iff.2 fun m hm => ?_
  rw [first?_eq_none.1 (h m hm)]
  rfl

theorem first?_optional (h : a.first? s = some m) : (optional a).first? s = some m := by
  rw [first?, ways, List.head?_append, ← first?, h]
  rfl

theorem first?_optional_of_none (h : a.first? s = none) :
    (optional a).first? s = some (.nothing s) := by
  rw [first?, ways, first?_eq_none.1 h]
  rfl

theorem first?_group (name : String) (h : a.first? s = some m) :
    (group name a).first? s = some (m.inGroup name) := by
  rw [first?, ways, List.head?_map, ← first?, h]
  rfl

theorem first?_many (h : a.first? s = some m) (hne : m.taken ≠ [])
    (h' : a.many.first? m.rest = some m') : a.many.first? s = some (m.followedBy m') := by
  obtain ⟨ms, hms⟩ := List.head?_eq_some_iff.1 h
  have hfilter : ((a.ways s).filter fun m => !m.taken.isEmpty).head? = some m := by
    rw [hms, List.filter_cons_of_pos (by simpa using hne)]
    rfl
  rw [first?, ways_many, List.head?_append,
    head?_flatMap_map (f := fun m => a.many.ways m.rest) (g := Match.followedBy) hfilter h']
  rfl

theorem first?_many_of_none (h : a.first? s = none) : a.many.first? s = some (.nothing s) := by
  rw [first?, ways_many, first?_eq_none.1 h]
  rfl

/-- A repeated character is taken as often as it stands there. -/
theorem first?_many_one (p : Char → Bool) (s : List Char) :
    (one p).many.first? s = some ⟨s.takeWhile p, [], s.dropWhile p⟩ := by
  induction s with
  | nil => rfl
  | cons c rest ih =>
    by_cases hc : p c = true
    · rw [List.takeWhile_cons_of_pos hc, List.dropWhile_cons_of_pos hc]
      exact first?_many (first?_one_cons hc) (List.cons_ne_nil _ _) ih
    · rw [List.takeWhile_cons_of_neg hc, List.dropWhile_cons_of_neg hc]
      refine first?_many_of_none (first?_one_eq_none fun d hd => ?_)
      obtain rfl := Option.some.inj hd
      simpa using hc

/-- So is one that has to stand there at least once. -/
theorem first?_many1_one {p : Char → Bool} {t : List Char} (hne : t ≠ [])
    (ht : ∀ c ∈ t, p c = true) (hs : ∀ c ∈ s.head?, p c = false) :
    (one p).many1.first? (t ++ s) = some ⟨t, [], s⟩ := by
  obtain ⟨c, t, rfl⟩ := List.exists_cons_of_ne_nil hne
  obtain ⟨hc, ht⟩ := List.forall_mem_cons.1 ht
  have hstop : s.takeWhile p = [] ∧ s.dropWhile p = s := by
    cases s with
    | nil => exact ⟨rfl, rfl⟩
    | cons d s => simp [hs d rfl]
  have hmany := first?_many_one p (t ++ s)
  rw [List.takeWhile_append_of_pos ht, List.dropWhile_append_of_pos ht, hstop.1, hstop.2,
    List.append_nil] at hmany
  exact first?_seq (first?_one_cons hc) hmany

theorem first?_many1_one_eq_none {p : Char → Bool} (h : ∀ c ∈ s.head?, p c = false) :
    (one p).many1.first? s = none := by
  refine first?_seq_eq_none fun m hm => ?_
  rw [first?_eq_none.1 (first?_one_eq_none h)] at hm
  cases hm

/-! ### The matches from left to right -/

theorem findAllFrom_eq_findAll (a : Pattern) (k : Nat) (s : List Char) :
    a.findAllFrom k s = a.findAll (s.drop k) := by
  induction s generalizing k with
  | nil => cases k <;> rfl
  | cons c rest ih =>
    cases k with
    | zero => rfl
    | succ k => exact ih k

/-- A match at the front is the first one, and the others stand behind it. -/
theorem findAll_of_first? (h : a.first? s = some m) (hne : m.taken ≠ []) :
    a.findAll s = m :: a.findAll m.rest := by
  have hsplit : m.taken ++ m.rest = s := taken_append_rest (List.mem_of_mem_head? h)
  obtain ⟨c, t, ht⟩ := List.exists_cons_of_ne_nil hne
  rw [ht, List.cons_append] at hsplit
  subst hsplit
  rw [findAll, findAllFrom, h]
  simp only [findAllFrom_eq_findAll, ht, List.length_cons, Nat.add_sub_cancel, List.drop_left]

end Pattern

end ColdSigner.Text
