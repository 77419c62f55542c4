import ColdSigner.Bytes.Lemmas
import ColdSigner.Phrase.Words
import ColdSigner.Text.Blank
import ColdSigner.Text.Styled
import Mathlib.Data.List.Chain

/-! The list of words.

Three facts are checked word by word, on the bytes of the list: how many words there
are, that they ascend, and that they are rows of small letters. What phrases need of
the list follows: no word stands there twice, none has a blank in it, and none has a
plainer spelling than its own. -/
namespace ColdSigner.Phrase

/-! ### What is checked -/

theorem length_words : words.length = 2048 := by decide +kernel

set_option maxRecDepth 8192 in
theorem words_ascend : words.IsChain fun v w => Bytes.ofText v < Bytes.ofText w := by
  decide +kernel

/-- A byte that a small letter is written with. -/
def isLetterByte (b : UInt8) : Bool := Nat.ble 97 b.toNat && Nat.ble b.toNat 122

-- a plain `Bool`: to decide `∀ b ∈ ..` goes through all bytes there are
theorem words_spelled_in_letters :
    (words.all fun w => !(Bytes.ofText w).isEmpty && (Bytes.ofText w).all isLetterByte) = true := by
  decide +kernel

/-! ### What follows -/

theorem nodup_words : words.Nodup := by
  have hchain : (words.map Bytes.ofText).IsChain (· < ·) := (List.isChain_map _).2 words_ascend
  refine (List.pairwise_map.1 hchain.pairwise).imp fun hlt heq => ?_
  rw [heq] at hlt
  exact List.lt_irrefl _ hlt

/-- A small letter, as the words are written with. -/
def IsLetter (c : Char) : Prop := 97 ≤ c.toNat ∧ c.toNat ≤ 122

theorem isLetterByte_iff {b : UInt8} :
    isLetterByte b = true ↔ 97 ≤ b.toNat ∧ b.toNat ≤ 122 := by
  rw [isLetterByte, Bool.and_eq_true, Nat.ble_eq, Nat.ble_eq]

/-- Only letters have their bytes among those of letters. -/
theorem isLetter_of_bytes {c : Char} (h : ∀ b ∈ String.utf8EncodeChar c, isLetterByte b = true) :
    IsLetter c := by
  have htoNat {b : UInt8} (hb : b ∈ String.utf8EncodeChar c) : 97 ≤ b.toNat ∧ b.toNat ≤ 122 :=
    isLetterByte_iff.1 (h b hb)
  unfold String.utf8EncodeChar at htoNat
  dsimp only at htoNat
  -- whatever takes more than one byte starts with one above all letters
  split at htoNat
  · have hbyte := htoNat (List.mem_singleton_self _)
    rw [UInt8.toNat_ofNat'] at hbyte
    unfold IsLetter Char.toNat
    omega
  · split at htoNat
    · have hbyte := htoNat (List.mem_cons_self ..)
      rw [UInt8.toNat_ofNat'] at hbyte
      omega
    · split at htoNat
      · have hbyte := htoNat (List.mem_cons_self ..)
        rw [UInt8.toNat_ofNat'] at hbyte
        omega
      · have hbyte := htoNat (List.mem_cons_self ..)
        rw [UInt8.toNat_ofNat'] at hbyte
        omega

theorem letters_of_mem_words {w : String} (h : w ∈ words) :
    w.toList ≠ [] ∧ ∀ c ∈ w.toList, IsLetter c := by
  have hspelled := List.all_eq_true.1 words_spelled_in_letters w h
  rw [Bool.and_eq_true, Bool.not_eq_true', List.all_eq_true, Bytes.ofText_eq_flatMap] at hspelled
  obtain ⟨nonempty, hbytes⟩ := hspelled
  refine ⟨fun hnil => ?_, fun c hc => isLetter_of_bytes fun b hb => ?_⟩
  · rw [hnil] at nonempty
    cases nonempty
  · exact hbytes b (List.mem_flatMap.2 ⟨c, hc, hb⟩)

theorem IsLetter.not_blank {c : Char} (h : IsLetter c) : Text.isBlank c = false := by
  obtain ⟨hlow, hhigh⟩ := h
  simp [Text.isBlank]
  omega

theorem IsLetter.plainChar_eq {c : Char} (h : IsLetter c) : Text.plainChar c = [c] :=
  if_pos (Nat.lt_of_le_of_lt h.2 (by decide))

end ColdSigner.Phrase
