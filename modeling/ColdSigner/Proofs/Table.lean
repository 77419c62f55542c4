import ColdSigner.Table

/-! Tables that are in order.

Nothing but a lookup is known of a table as such. In one whose keys ascend, and so
never repeat, a lookup finds all that is listed, and every operation leaves the keys
in that order. -/
namespace ColdSigner.Table

variable {κ α : Type} [LT κ]

/-- The keys ascend. -/
def Ordered (t : Table κ α) : Prop := t.entries.Pairwise fun a b => a.1 < b.1

theorem ordered_empty : ({} : Table κ α).Ordered := .nil

omit [LT κ] in
theorem filter_eq_self {t : Table κ α} {p : κ → α → Bool}
    (h : ∀ e ∈ t.entries, p e.1 e.2 = true) : t.filter p = t :=
  congrArg Table.mk (List.filter_eq_self.2 h)

theorem Ordered.nodup_keys [Std.Irrefl (α := κ) (· < ·)] {t : Table κ α} (h : t.Ordered) :
    t.keys.Nodup := by
  refine List.pairwise_map.2 (h.imp fun {a b} hlt heq => ?_)
  exact Std.Irrefl.irrefl (r := (· < ·)) a.1 (heq ▸ hlt)

theorem Ordered.filter {t : Table κ α} (h : t.Ordered) (p : κ → α → Bool) : (t.filter p).Ordered :=
  h.sublist List.filter_sublist

variable [DecidableEq κ]

omit [LT κ] in
theorem erase_eq_self {t : Table κ α} {k : κ} (h : ∀ e ∈ t.entries, e.1 ≠ k) : t.erase k = t :=
  congrArg Table.mk (List.filter_eq_self.2 fun e he => decide_eq_true (h e he))

theorem Ordered.erase {t : Table κ α} (h : t.Ordered) (k : κ) : (t.erase k).Ordered :=
  h.sublist List.filter_sublist

/-- What is listed under its own key is found, and nothing else. -/
theorem Ordered.find?_eq_some [Std.Irrefl (α := κ) (· < ·)] {t : Table κ α} (h : t.Ordered) {k : κ}
    {v : α} : t.find? k = some v ↔ (k, v) ∈ t.entries := by
  obtain ⟨entries⟩ := t
  simp only [find?, Option.map_eq_some_iff]
  constructor
  · rintro ⟨⟨key, value⟩, hfind, rfl⟩
    have hkey : key = k := by simpa using List.find?_some hfind
    rw [← hkey]
    exact List.mem_of_find?_eq_some hfind
  · intro hmem
    refine ⟨(k, v), ?_, rfl⟩
    unfold Ordered at h
    induction entries with
    | nil => cases hmem
    | cons e rest ih =>
      obtain ⟨hfirst, hrest⟩ := List.pairwise_cons.1 h
      rcases List.mem_cons.1 hmem with rfl | hmem
      · simp
      · have hlt : e.1 < k := hfirst _ hmem
        have hne : e.1 ≠ k := fun he => Std.Irrefl.irrefl (r := (· < ·)) k (he ▸ hlt)
        rw [List.find?_cons_of_neg (by simpa using hne)]
        exact ih hrest hmem

theorem Ordered.mem_keys [Std.Irrefl (α := κ) (· < ·)] {t : Table κ α} (h : t.Ordered) {k : κ} :
    k ∈ t.keys ↔ (t.find? k).isSome = true := by
  simp only [keys, List.mem_map, Prod.exists, Option.isSome_iff_exists, h.find?_eq_some]
  constructor
  · rintro ⟨_, v, hmem, rfl⟩
    exact ⟨v, hmem⟩
  · rintro ⟨v, hmem⟩
    exact ⟨k, v, hmem, rfl⟩

/-- What is kept is found as before, and what is not is no longer there. -/
theorem Ordered.find?_filter [Std.Irrefl (α := κ) (· < ·)] {t : Table κ α} (h : t.Ordered)
    (p : κ → α → Bool) (k : κ) : (t.filter p).find? k = (t.find? k).filter (p k) := by
  refine Option.ext fun v => ?_
  rw [(h.filter p).find?_eq_some, Option.filter_eq_some_iff, h.find?_eq_some]
  exact List.mem_filter

variable [DecidableLT κ]

theorem mem_insertEntry {entries : List (κ × α)} {k : κ} {v : α} {e : κ × α}
    (h : e ∈ insertEntry k v entries) : e = (k, v) ∨ e ∈ entries := by
  induction entries with
  | nil => exact .inl (List.mem_singleton.1 h)
  | cons first rest ih =>
    unfold insertEntry at h
    split at h
    · rcases List.mem_cons.1 h with h | h
      · exact .inl h
      · exact .inr (List.mem_cons_of_mem _ h)
    · split at h
      · exact List.mem_cons.1 h
      · rcases List.mem_cons.1 h with rfl | h
        · exact .inr (List.mem_cons_self ..)
        · exact (ih h).imp id (List.mem_cons_of_mem _)

theorem Ordered.insert [Std.Trichotomous (α := κ) (· < ·)] [Trans (α := κ) (· < ·) (· < ·) (· < ·)]
    {t : Table κ α} (h : t.Ordered) (k : κ) (v : α) : (t.insert k v).Ordered := by
  obtain ⟨entries⟩ := t
  unfold Ordered Table.insert at *
  induction entries with
  | nil => exact List.pairwise_singleton ..
  | cons e rest ih =>
    obtain ⟨hfirst, hrest⟩ := List.pairwise_cons.1 h
    unfold insertEntry
    split
    · next hk =>
      subst hk
      exact List.pairwise_cons.2 ⟨hfirst, hrest⟩
    · next hne =>
      split
      · next hlt =>
        refine List.pairwise_cons.2 ⟨fun e' he' => ?_, h⟩
        rcases List.mem_cons.1 he' with rfl | he'
        · exact hlt
        · exact Trans.trans hlt (hfirst e' he')
      · next hnot =>
        have hlt : e.1 < k := Decidable.byContradiction fun hle =>
          hne (Std.Trichotomous.trichotomous (r := (· < ·)) k e.1 hnot hle)
        refine List.pairwise_cons.2 ⟨fun e' he' => ?_, ih hrest⟩
        rcases mem_insertEntry he' with rfl | he'
        · exact hlt
        · exact hfirst e' he'

/-- What is stored under a key is gone when the key is dropped. -/
theorem erase_insert (t : Table κ α) (k : κ) (v : α) : (t.insert k v).erase k = t.erase k := by
  obtain ⟨entries⟩ := t
  refine congrArg Table.mk ?_
  show (insertEntry k v entries).filter _ = entries.filter _
  induction entries with
  | nil => simp [insertEntry]
  | cons e rest ih =>
    unfold insertEntry
    split
    · next hk => simp [← hk]
    · split
      · simp
      · rw [List.filter_cons, List.filter_cons, ih]

/-- An entry that is not kept, in place of one that is not kept, makes no difference. -/
theorem filter_insert (t : Table κ α) {k : κ} {v : α} {p : κ → α → Bool} (dropped : p k v = false)
    (replaced : ∀ old, t.find? k = some old → p k old = false) :
    (t.insert k v).filter p = t.filter p := by
  obtain ⟨entries⟩ := t
  refine congrArg Table.mk ?_
  show (insertEntry k v entries).filter _ = entries.filter _
  induction entries with
  | nil => simp [insertEntry, dropped]
  | cons e rest ih =>
    unfold insertEntry
    split
    · next hk =>
      subst hk
      rw [List.filter_cons_of_neg (by simp [dropped]),
        List.filter_cons_of_neg (by simp [replaced e.2 (by simp [find?])])]
    · next hne =>
      split
      · rw [List.filter_cons_of_neg (by simp [dropped])]
      · have hrest := ih fun old hold => replaced old (by simpa [find?, Ne.symm hne] using hold)
        rw [List.filter_cons, List.filter_cons, hrest]

/-- Entries under two keys go in in either order. -/
theorem insertEntry_comm [Std.Asymm (α := κ) (· < ·)] [Std.Trichotomous (α := κ) (· < ·)]
    [Trans (α := κ) (· < ·) (· < ·) (· < ·)] {a b : κ} (hne : a ≠ b) (x y : α)
    (entries : List (κ × α)) :
    insertEntry a x (insertEntry b y entries) = insertEntry b y (insertEntry a x entries) := by
  have hasymm {i j : κ} : i < j → ¬ j < i := Std.Asymm.asymm (r := (· < ·)) i j
  have htri {i j : κ} : ¬ i < j → ¬ j < i → i = j := Std.Trichotomous.trichotomous (r := (· < ·)) i j
  have htrans {i j k : κ} (h : i < j) (h' : j < k) : i < k := Trans.trans h h'
  induction entries with
  | nil => grind [insertEntry]
  | cons e rest ih => grind [insertEntry]

/-- Stores `v` under `k` unless something is there. -/
def keep (t : Table κ α) (k : κ) (v : α) : Table κ α :=
  if (t.find? k).isSome then t else t.insert k v

theorem find?_keep_of_ne {k k' : κ} (hne : k ≠ k') (t : Table κ α) (v : α) :
    (t.keep k v).find? k' = t.find? k' := by
  unfold keep
  split
  · rfl
  · rw [find?_insert, if_neg hne]

/-- What is kept under a key is what was first stored there. -/
theorem find?_keep_self (t : Table κ α) (k : κ) (v : α) :
    (t.keep k v).find? k = some ((t.find? k).getD v) := by
  unfold keep
  split
  · next h =>
    obtain ⟨old, hold⟩ := Option.isSome_iff_exists.1 h
    rw [hold, Option.getD_some]
  · next h =>
    rw [find?_insert, if_pos rfl, Option.not_isSome_iff_eq_none.1 h, Option.getD_none]

theorem Ordered.keep [Std.Trichotomous (α := κ) (· < ·)] [Trans (α := κ) (· < ·) (· < ·) (· < ·)]
    {t : Table κ α} (h : t.Ordered) (k : κ) (v : α) : (t.keep k v).Ordered := by
  unfold Table.keep
  split
  · exact h
  · exact h.insert k v

/-- Under two keys entries are kept in either order. -/
theorem keep_comm [Std.Asymm (α := κ) (· < ·)] [Std.Trichotomous (α := κ) (· < ·)]
    [Trans (α := κ) (· < ·) (· < ·) (· < ·)] {a b : κ} (hne : a ≠ b) (t : Table κ α) (x y : α) :
    (t.keep a x).keep b y = (t.keep b y).keep a x := by
  have hb : (t.keep a x).keep b y =
      if (t.find? b).isSome then t.keep a x else (t.keep a x).insert b y := by
    rw [keep, find?_keep_of_ne hne]
  have ha : (t.keep b y).keep a x =
      if (t.find? a).isSome then t.keep b y else (t.keep b y).insert a x := by
    rw [keep, find?_keep_of_ne hne.symm]
  rw [ha, hb]
  unfold keep
  cases (t.find? a).isSome <;> cases (t.find? b).isSome
  · exact congrArg Table.mk (insertEntry_comm hne.symm y x t.entries)
  all_goals rfl

/-- A key below all others goes to the front. -/
theorem insertEntry_of_forall_lt {entries : List (κ × α)} {k : κ} (v : α)
    (h : ∀ e ∈ entries, k ≠ e.1 ∧ k < e.1) : insertEntry k v entries = (k, v) :: entries := by
  cases entries with
  | nil => rfl
  | cons e rest =>
    obtain ⟨hne, hlt⟩ := h e (List.mem_cons_self ..)
    rw [insertEntry, if_neg hne, if_pos hlt]

/-- A key above all others goes to the end. -/
theorem insertEntry_of_forall_gt [Std.Asymm (α := κ) (· < ·)] {entries : List (κ × α)} {k : κ} (v : α)
    (h : ∀ e ∈ entries, e.1 < k) : insertEntry k v entries = entries ++ [(k, v)] := by
  induction entries with
  | nil => rfl
  | cons e rest ih =>
    obtain ⟨hlt, hrest⟩ := List.forall_mem_cons.1 h
    have hnot : ¬ k < e.1 := Std.Asymm.asymm (r := (· < ·)) _ _ hlt
    have hne : k ≠ e.1 := fun heq => hnot (heq ▸ heq ▸ hlt)
    rw [insertEntry, if_neg hne, if_neg hnot, ih hrest, List.cons_append]

/-- Of the entries of a table some are kept. One more of them is put where it stood. -/
theorem insertEntry_filter [Std.Asymm (α := κ) (· < ·)] {entries : List (κ × α)}
    (h : entries.Pairwise fun a b => a.1 < b.1) {k : κ} {v : α} (hmem : (k, v) ∈ entries)
    {p : κ → Bool} (hp : p k = false) :
    insertEntry k v (entries.filter fun e => p e.1) =
      entries.filter fun e => p e.1 || decide (e.1 = k) := by
  have hne {a b : κ} (hlt : a < b) : a ≠ b := fun hab =>
    Std.Asymm.asymm (r := (· < ·)) a b hlt (hab ▸ hlt)
  induction entries with
  | nil => cases hmem
  | cons e rest ih =>
    obtain ⟨hfirst, hrest⟩ := List.pairwise_cons.1 h
    rcases List.mem_cons.1 hmem with rfl | hmem
    · have hkept : rest.filter (fun e => p e.1 || decide (e.1 = k)) = rest.filter fun e => p e.1 :=
        List.filter_congr fun e he => by simp [(hne (hfirst e he)).symm]
      rw [List.filter_cons_of_neg (by simpa using hp), List.filter_cons_of_pos (by simp), hkept]
      refine insertEntry_of_forall_lt v fun e he => ?_
      have hlt := hfirst e (List.mem_filter.1 he).1
      exact ⟨hne hlt, hlt⟩
    · have hlt : e.1 < k := hfirst _ hmem
      rw [List.filter_cons, List.filter_cons]
      cases p e.1 with
      | true =>
        rw [if_pos rfl, if_pos (Bool.true_or _), insertEntry, if_neg (hne hlt).symm,
          if_neg (Std.Asymm.asymm (r := (· < ·)) _ _ hlt), ih hrest hmem]
      | false =>
        rw [if_neg Bool.false_ne_true, if_neg (by simpa using hne hlt), ih hrest hmem]

end ColdSigner.Table
