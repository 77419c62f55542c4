import ColdSigner.Bytes.Lemmas
import ColdSigner.Proofs.Phrase.WordList
import ColdSigner.Proofs.Text.Splitting
import ColdSigner.Vault.Seeds
import Mathlib.Data.List.GetD
import Mathlib.Data.List.Nodup

/-! What is read of a phrase.

Words stand for the digits of a number, and the number for entropy with its checksum.
So a phrase that entropy gives is read as this entropy. And a phrase that is read at the
first glance, with single spaces between its words, is read in the same way however it
was typed, since no blank and no styled letter is part of a word. -/
namespace ColdSigner.Phrase

/-! ### Words and their numbers -/

theorem index?_eq_some {w : List Char} {i : Nat} (h : index? w = some i) :
    i < words.length ∧ word i = String.ofList w := by
  obtain ⟨hi, hw, -⟩ := List.idxOf?_eq_some_iff.1 h
  exact ⟨hi, (List.getD_eq_getElem _ _ hi).trans hw⟩

/-- No word is found before its own place. -/
theorem index?_word {i : Nat} (h : i < words.length) : index? (word i).toList = some i := by
  have hword : word i = words[i] := List.getD_eq_getElem _ _ h
  refine List.idxOf?_eq_some_iff.2 ⟨h, ?_, fun j hj heq => ?_⟩
  · rw [String.ofList_toList, hword]
  · rw [String.ofList_toList, hword] at heq
    exact Nat.ne_of_lt hj (nodup_words.getElem_inj_iff.1 heq)

theorem letters_of_index? {w : List Char} {i : Nat} (h : index? w = some i) :
    w ≠ [] ∧ ∀ c ∈ w, IsLetter c := by
  obtain ⟨hi, hw⟩ := index?_eq_some h
  have hmem : String.ofList w ∈ words := by
    rw [← hw, word, List.getD_eq_getElem _ _ hi]
    exact List.getElem_mem hi
  simpa using letters_of_mem_words hmem

theorem mapM_index?_words {ds : List Nat} (h : ∀ d ∈ ds, d < words.length) :
    (ds.map fun d => (word d).toList).mapM index? = some ds := by
  induction ds with
  | nil => rfl
  | cons d ds ih =>
    obtain ⟨hd, hds⟩ := List.forall_mem_cons.1 h
    rw [List.map_cons, List.mapM_cons, index?_word hd, ih hds]
    rfl

theorem exists_index_of_mapM {ws : List (List Char)} {indices : List Nat}
    (h : ws.mapM index? = some indices) : ∀ w ∈ ws, ∃ i, index? w = some i := by
  induction ws generalizing indices with
  | nil => exact nofun
  | cons w ws ih =>
    rw [List.mapM_cons] at h
    obtain ⟨i, hi, h⟩ := Option.bind_eq_some_iff.1 h
    obtain ⟨rest, hrest, -⟩ := Option.bind_eq_some_iff.1 h
    exact List.forall_mem_cons.2 ⟨⟨i, hi⟩, ih hrest⟩

/-! ### Digits -/

theorem length_digits (base n v : Nat) : (digits base n v).length = n := by
  induction n generalizing v with
  | zero => rfl
  | succ n ih => rw [digits, List.length_append, ih, List.length_singleton]

theorem digits_lt {base : Nat} (h : 0 < base) (n v : Nat) : ∀ d ∈ digits base n v, d < base := by
  induction n generalizing v with
  | zero => exact nofun
  | succ n ih =>
    rw [digits]
    exact List.forall_mem_append.2 ⟨ih _, List.forall_mem_singleton.2 (Nat.mod_lt v h)⟩

/-- The digits keep as much of a number as they can hold. -/
theorem ofDigits_digits (base n v : Nat) : ofDigits base (digits base n v) = v % base ^ n := by
  induction n generalizing v with
  | zero => simp [digits, ofDigits, Nat.mod_one]
  | succ n ih =>
    have happend (ds : List Nat) (d : Nat) :
        ofDigits base (ds ++ [d]) = ofDigits base ds * base + d := List.foldl_append
    rw [digits, happend, ih, show base ^ (n + 1) = base * base ^ n from Nat.pow_succ', Nat.mod_mul,
      Nat.mul_comm, Nat.add_comm]

/-! ### Entropy -/

/-- What entropy of each length takes. -/
theorem sizes_of_entropy {n : Nat} (h : n ∈ SecretKey.entropyLengths) :
    wordCount n ∈ wordCounts ∧ entropyLength (wordCount n) = n ∧ checksumLength (wordCount n) ≤ 8 ∧
      8 * n + checksumLength (wordCount n) = 11 * wordCount n := by
  have hall : ∀ n ∈ SecretKey.entropyLengths, wordCount n ∈ wordCounts ∧
      entropyLength (wordCount n) = n ∧ checksumLength (wordCount n) ≤ 8 ∧
        8 * n + checksumLength (wordCount n) = 11 * wordCount n := by decide
  exact hall n h

theorem checksum_lt {entropy : Bytes} (h : entropy.length ∈ SecretKey.entropyLengths) :
    checksum entropy < 2 ^ checksumLength (wordCount entropy.length) := by
  obtain ⟨-, -, hbits, -⟩ := sizes_of_entropy h
  have hfirst : Bytes.toNat ((Sha256.hash entropy).take 1) < 2 ^ 8 := by
    refine Nat.lt_of_lt_of_le (Bytes.toNat_lt _) ?_
    exact Nat.pow_le_pow_right (by decide) (List.length_take_le 1 _)
  refine Nat.div_lt_of_lt_mul (Nat.lt_of_lt_of_eq hfirst ?_)
  show 2 ^ 8 = 2 ^ (8 - checksumLength (wordCount entropy.length)) * _
  rw [← Nat.pow_add, Nat.sub_add_cancel hbits]

theorem ofNatBE_toNatBE (b : Bytes) : Bytes.ofNatBE b.length b.toNatBE = b := by
  rw [Bytes.ofNatBE, Bytes.toNatBE, ← List.length_reverse, Bytes.ofNat_toNat, List.reverse_reverse]

/-- Entropy and its checksum fit into eleven bits for each word. -/
theorem entropy_lt {entropy : Bytes} (h : entropy.length ∈ SecretKey.entropyLengths) :
    entropy.toNatBE * 2 ^ checksumLength (wordCount entropy.length) + checksum entropy <
      words.length ^ wordCount entropy.length := by
  obtain ⟨-, -, -, hbits⟩ := sizes_of_entropy h
  have hvalue : entropy.toNatBE < 2 ^ (8 * entropy.length) := by
    rw [Nat.pow_mul, ← List.length_reverse]
    exact Bytes.toNat_lt _
  rw [length_words, show (2048 : Nat) = 2 ^ 11 from rfl, ← Nat.pow_mul, ← hbits, Nat.pow_add]
  calc entropy.toNatBE * 2 ^ checksumLength (wordCount entropy.length) + checksum entropy
    _ < entropy.toNatBE * 2 ^ checksumLength (wordCount entropy.length) +
        2 ^ checksumLength (wordCount entropy.length) := Nat.add_lt_add_left (checksum_lt h) _
    _ = (entropy.toNatBE + 1) * 2 ^ checksumLength (wordCount entropy.length) :=
      (Nat.succ_mul ..).symm
    _ ≤ 2 ^ (8 * entropy.length) * 2 ^ checksumLength (wordCount entropy.length) :=
      Nat.mul_le_mul_right _ hvalue

/-- The words of entropy are read as this entropy. -/
theorem toEntropy_ofEntropy {entropy : Bytes} (h : entropy.length ∈ SecretKey.entropyLengths) :
    toEntropy ((ofEntropy entropy).map String.toList) = .ok entropy := by
  obtain ⟨hcount, hlength, -⟩ := sizes_of_entropy h
  let bits := Nat.pow 2 (checksumLength (wordCount entropy.length))
  have hpos : 0 < bits := Nat.two_pow_pos _
  have hsum : checksum entropy < bits := checksum_lt h
  have hdiv : (entropy.toNatBE * bits + checksum entropy) / bits = entropy.toNatBE := by
    rw [Nat.mul_comm, Nat.mul_add_div hpos, Nat.div_eq_of_lt hsum, Nat.add_zero]
  have hmod : (entropy.toNatBE * bits + checksum entropy) % bits = checksum entropy := by
    rw [Nat.mul_comm, Nat.mul_add_mod, Nat.mod_eq_of_lt hsum]
  have hfits : (entropy.toNatBE * bits + checksum entropy) %
      words.length ^ wordCount entropy.length = entropy.toNatBE * bits + checksum entropy :=
    Nat.mod_eq_of_lt (entropy_lt h)
  have hindices : ((ofEntropy entropy).map String.toList).mapM index? =
      some (digits words.length (wordCount entropy.length)
        (entropy.toNatBE * bits + checksum entropy)) := by
    rw [ofEntropy, List.map_map]
    exact mapM_index?_words (digits_lt (by rw [length_words]; decide) _ _)
  unfold toEntropy
  rw [hindices]
  dsimp only
  rw [length_digits, if_pos hcount, ofDigits_digits, hfits]
  show (if checksum (Bytes.ofNatBE _ ((entropy.toNatBE * bits + checksum entropy) / bits)) =
    (entropy.toNatBE * bits + checksum entropy) % bits then _ else _) = _
  rw [hdiv, hmod, hlength, ofNatBE_toNatBE, if_pos rfl]

theorem letters_of_toEntropy {ws : List (List Char)} {entropy : Bytes}
    (h : toEntropy ws = .ok entropy) : ∀ w ∈ ws, w ≠ [] ∧ ∀ c ∈ w, IsLetter c := by
  unfold toEntropy at h
  split at h
  · cases h
  · next indices hindices =>
    intro w hw
    obtain ⟨i, hi⟩ := exists_index_of_mapM hindices w hw
    exact letters_of_index? hi

theorem length_of_toEntropy {ws : List (List Char)} {entropy : Bytes}
    (h : toEntropy ws = .ok entropy) : entropy.length ∈ SecretKey.entropyLengths := by
  have hlengths : ∀ count ∈ wordCounts, entropyLength count ∈ SecretKey.entropyLengths := by decide
  unfold toEntropy at h
  split at h
  · cases h
  · dsimp only at h
    split at h
    · next hcount =>
      split at h
      · obtain rfl := Except.ok.inj h
        rw [Bytes.length_ofNatBE]
        exact hlengths _ hcount
      · cases h
    · cases h

theorem ne_nil_of_toEntropy {ws : List (List Char)} {entropy : Bytes}
    (h : toEntropy ws = .ok entropy) : ws ≠ [] := by
  rintro rfl
  cases h

/-! ### Phrases -/

theorem length_of_parse {s : String} {entropy : Bytes} (h : parse s = .ok entropy) :
    entropy.length ∈ SecretKey.entropyLengths := length_of_toEntropy h

theorem plain_eq {w : List Char} (letters : ∀ c ∈ w, IsLetter c) : Text.plain w = w := by
  induction w with
  | nil => rfl
  | cons c rest ih =>
    obtain ⟨hc, hrest⟩ := List.forall_mem_cons.1 letters
    rw [Text.plain, List.flatMap_cons, hc.plainChar_eq]
    exact congrArg (c :: ·) (ih hrest)

/-- The words of a phrase stay as they are when it is read. -/
theorem parse_of_words {s : String} {ws : List (List Char)} {entropy : Bytes}
    (h : toEntropy ws = .ok entropy) (hs : Text.words s.toList = ws) : parse s = .ok entropy := by
  have letters := letters_of_toEntropy h
  have hplain : ws.map Text.plain = ws :=
    (List.map_congr_left fun w hw => plain_eq (letters w hw).2).trans (List.map_id ws)
  have hspaceless : ∀ w ∈ ws, ' ' ∉ w := fun w hw hspace =>
    Bool.false_ne_true ((letters w hw).2 _ hspace).not_blank.symm
  rw [parse, parseExact, hs, hplain, Text.splitOn_eq, ← List.splitOn_eq_splitOnP,
    List.splitOn_intercalate ' ' hspaceless (ne_nil_of_toEntropy h), h]

theorem words_of_toEntropy {ws : List (List Char)} {entropy : Bytes} (h : toEntropy ws = .ok entropy) :
    Text.words ([' '].intercalate ws) = ws :=
  Text.words_intercalate rfl fun w hw =>
    ⟨(letters_of_toEntropy h w hw).1, fun c hc => ((letters_of_toEntropy h w hw).2 c hc).not_blank⟩

/-- A phrase that is read as it stands, but for blanks around it, is read in any case. -/
theorem parse_of_parseExact {s : String} {entropy : Bytes}
    (h : parseExact (Text.trimChars s.toList) = .ok entropy) : parse s = .ok entropy := by
  have hsplit : [' '].intercalate (Text.splitOn (· == ' ') (Text.trimChars s.toList)) =
      Text.trimChars s.toList := by
    rw [Text.splitOn_eq, ← List.splitOn_eq_splitOnP]
    exact List.intercalate_splitOn ' '
  refine parse_of_words h ?_
  calc Text.words s.toList
    _ = Text.words (Text.trimChars s.toList) := (Text.words_trimChars _).symm
    _ = Text.words ([' '].intercalate (Text.splitOn (· == ' ') (Text.trimChars s.toList))) := by
      rw [hsplit]
    _ = Text.splitOn (· == ' ') (Text.trimChars s.toList) := words_of_toEntropy h

/-- The phrase of entropy is read as this entropy. -/
theorem parse_render {entropy : Bytes} (h : entropy.length ∈ SecretKey.entropyLengths) :
    parse (render entropy) = .ok entropy := by
  refine parse_of_words (toEntropy_ofEntropy h) ?_
  rw [render, String.toList_intercalate]
  exact words_of_toEntropy (toEntropy_ofEntropy h)

end ColdSigner.Phrase

namespace ColdSigner.Vault

/-- A phrase that was drawn can be read. -/
theorem exists_parse_of_newPhrase {random : FixedBytes 32} {words : Nat} {phrase : String}
    (h : newPhrase random words = .ok phrase) : ∃ entropy, Phrase.parse phrase = .ok entropy := by
  unfold newPhrase at h
  split at h
  · next hwords =>
    obtain rfl := Except.ok.inj h
    refine ⟨_, Phrase.parse_render ?_⟩
    have hall : ∀ count ∈ Phrase.wordCounts, min (Phrase.entropyLength count) 32 ∈
        SecretKey.entropyLengths := by decide
    rw [List.length_take, random.length_eq]
    exact hall words hwords
  · cases h

end ColdSigner.Vault
