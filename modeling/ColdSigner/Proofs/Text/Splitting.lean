import ColdSigner.Text.Blank
import Mathlib.Data.List.TakeWhile

/-! Texts as words with blanks between them.

Blanks at the ends of a text, and their number anywhere, do not count: all that is said
here of the words of a text follows from what a single blank does between two texts. -/
namespace ColdSigner.Text

variable {s : List Char}

theorem splitOn_go_eq (p : Char → Bool) (run : List Char) (runs : List (List Char)) (s : List Char) :
    splitOn.go p run runs s = runs.reverse ++ (s.splitOnP p).modifyHead (run.reverse ++ ·) := by
  induction s generalizing run runs with
  | nil => simp [splitOn.go, List.splitOnP_nil]
  | cons c rest ih =>
    rw [splitOn.go, List.splitOnP_cons_eq_if_modifyHead]
    split
    · obtain ⟨part, parts, hparts⟩ := List.exists_cons_of_ne_nil (List.splitOnP_ne_nil p rest)
      rw [ih, hparts]
      simp
    · rw [ih, List.modifyHead_modifyHead]
      congr 2
      funext part
      simp

/-- The runs between separators, as the library has them. -/
theorem splitOn_eq (p : Char → Bool) (s : List Char) : splitOn p s = s.splitOnP p := by
  rw [splitOn, splitOn_go_eq]
  exact congrFun List.modifyHead_id _

/-! ### Words -/

/-- A blank ends what is before it, and starts what is behind it. -/
theorem words_append_blank {c : Char} (blank : isBlank c = true) (s t : List Char) :
    words (s ++ c :: t) = words s ++ words t := by
  simp only [words, splitOn_eq]
  rw [List.splitOnP_append_cons s t blank, List.filter_append]

theorem words_nil : words [] = [] := rfl

theorem words_cons_blank {c : Char} (blank : isBlank c = true) (s : List Char) :
    words (c :: s) = words s :=
  words_append_blank blank [] s

theorem words_dropWhile (s : List Char) : words (s.dropWhile isBlank) = words s := by
  induction s with
  | nil => rfl
  | cons c rest ih =>
    rw [List.dropWhile_cons]
    split
    · next blank => rw [ih, words_cons_blank blank]
    · rfl

theorem words_reverse_dropWhile (s : List Char) :
    words (s.dropWhile isBlank).reverse = words s.reverse := by
  induction s with
  | nil => rfl
  | cons c rest ih =>
    rw [List.dropWhile_cons]
    split
    · next blank =>
      rw [ih, List.reverse_cons, words_append_blank blank, words_nil, List.append_nil]
    · rfl

/-- Blanks at the ends make no words. -/
theorem words_trimChars (s : List Char) : words (trimChars s) = words s := by
  rw [trimChars, words_reverse_dropWhile, List.reverse_reverse, words_dropWhile]

theorem words_eq_singleton {w : List Char} (nonempty : w ≠ []) (solid : ∀ c ∈ w, isBlank c = false) :
    words w = [w] := by
  simp only [words, splitOn_eq]
  rw [List.splitOnP_eq_singleton solid, List.filter_cons_of_pos (by simpa using nonempty),
    List.filter_nil]

/-- Words with one blank between them are the words of this text. -/
theorem words_intercalate {ws : List (List Char)} {c : Char} (blank : isBlank c = true)
    (h : ∀ w ∈ ws, w ≠ [] ∧ ∀ c ∈ w, isBlank c = false) : words ([c].intercalate ws) = ws := by
  induction ws with
  | nil => rfl
  | cons w rest ih =>
    obtain ⟨⟨nonempty, solid⟩, hrest⟩ := List.forall_mem_cons.1 h
    cases rest with
    | nil =>
      rw [List.intercalate_singleton]
      exact words_eq_singleton nonempty solid
    | cons next rest =>
      rw [List.intercalate_cons_cons, List.append_assoc]
      show words (w ++ c :: [c].intercalate (next :: rest)) = _
      rw [words_append_blank blank, words_eq_singleton nonempty solid, ih hrest]
      rfl

/-! ### Ends without blanks -/

theorem trimChars_eq_nil_iff : trimChars s = [] ↔ ∀ c ∈ s, isBlank c = true := by
  rw [trimChars, List.reverse_eq_nil_iff, List.dropWhile_eq_nil_iff]
  constructor
  · intro h
    -- what is left at the front starts with no blank, unless nothing is left
    have hhead := List.head?_dropWhile_not isBlank s
    cases hleft : s.dropWhile isBlank with
    | nil => exact List.dropWhile_eq_nil_iff.1 hleft
    | cons c rest =>
      rw [hleft] at h hhead
      exact absurd (h c (by simp)) (Bool.eq_false_iff.1 hhead)
  · intro h c hc
    exact h c ((List.dropWhile_suffix _).subset (List.mem_reverse.1 hc))

/-- Nothing is left of a text at the second attempt only if nothing was left before. -/
theorem trimChars_trimChars_eq_nil_iff : trimChars (trimChars s) = [] ↔ trimChars s = [] := by
  refine ⟨fun h => ?_, fun h => by rw [h]; rfl⟩
  have hhead := List.head?_dropWhile_not isBlank (s.dropWhile isBlank).reverse
  cases hleft : (s.dropWhile isBlank).reverse.dropWhile isBlank with
  | nil => rw [trimChars, hleft, List.reverse_nil]
  | cons c rest =>
    have hc : c ∈ trimChars s := by simp [trimChars, hleft]
    rw [hleft] at hhead
    exact absurd (trimChars_eq_nil_iff.1 h c hc) (Bool.eq_false_iff.1 hhead)

end ColdSigner.Text
