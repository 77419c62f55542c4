import ColdSigner.Key.Secret

/-! What is a path.

`parse?_eq_some` says which texts are paths: those written as segments, each a code
without slash, and behind them nothing or a password. So a path without its password
is a path again, and it is the same one. -/
namespace ColdSigner

/-- The code of a segment can be told from the slashes around it. -/
structure Segment.Valid (s : Segment) : Prop where
  nonempty : s.code ≠ []
  slashless : '/' ∉ s.code

instance (s : Segment) : Decidable s.Valid :=
  decidable_of_iff (s.code ≠ [] ∧ '/' ∉ s.code)
    ⟨fun h => ⟨h.1, h.2⟩, fun h => ⟨h.nonempty, h.slashless⟩⟩

namespace DerivationPath

/-- What may stand behind a segment: nothing, or a slash. -/
def Stops (rest : List Char) : Prop := ∀ c ∈ rest.head?, c = '/'

theorem takeWhile_append_of_stops {code rest : List Char} (slashless : '/' ∉ code)
    (h : Stops rest) : (code ++ rest).takeWhile (· != '/') = code := by
  rw [List.takeWhile_append_of_pos fun c hc => by simpa using ne_of_mem_of_not_mem hc slashless]
  cases rest with
  | nil => rw [List.takeWhile_nil, List.append_nil]
  | cons c rest =>
    obtain rfl := h c rfl
    rw [List.takeWhile_cons_of_neg (by decide), List.append_nil]

theorem stops_dropWhile (s : List Char) : Stops (s.dropWhile (· != '/')) := by
  intro c hc
  have hstop := List.head?_dropWhile_not (· != '/') s
  rw [Option.mem_def.1 hc] at hstop
  simpa using hstop

theorem readCode_eq_some {isHard : Bool} {s rest : List Char} {segment : Segment} :
    readCode isHard s = some (segment, rest) ↔
      segment.Valid ∧ segment.isHard = isHard ∧ s = segment.code ++ rest ∧ Stops rest := by
  simp only [readCode]
  constructor
  · intro h
    split at h
    · cases h
    · next hcode =>
      obtain ⟨rfl, rfl⟩ := Prod.mk.inj (Option.some.inj h)
      refine ⟨⟨by simpa using hcode, fun hmem => ?_⟩, rfl, List.takeWhile_append_dropWhile.symm,
        stops_dropWhile s⟩
      simpa using List.all_eq_true.1 List.all_takeWhile '/' hmem
  · rintro ⟨⟨hne, hslash⟩, rfl, rfl, hstops⟩
    have htake := takeWhile_append_of_stops hslash hstops
    have hsplit := List.takeWhile_append_dropWhile (p := (· != '/')) (l := segment.code ++ rest)
    rw [htake] at hsplit
    rw [htake, List.append_cancel_left hsplit, if_neg (by simpa using hne)]

theorem readSegment_eq_some {s rest : List Char} {segment : Segment} :
    readSegment s = some (segment, rest) ↔
      segment.Valid ∧ s = segment.chars ++ rest ∧ Stops rest := by
  constructor
  · intro h
    unfold readSegment at h
    split at h
    · obtain ⟨hvalid, hhard, rfl, hstops⟩ := readCode_eq_some.1 h
      exact ⟨hvalid, by simp [Segment.chars, hhard], hstops⟩
    · obtain ⟨hvalid, hhard, rfl, hstops⟩ := readCode_eq_some.1 h
      exact ⟨hvalid, by simp [Segment.chars, hhard], hstops⟩
    · cases h
  · rintro ⟨hvalid, rfl, hstops⟩
    obtain ⟨isHard, code⟩ := segment
    cases isHard with
    | true => exact readCode_eq_some.2 ⟨hvalid, rfl, rfl, hstops⟩
    | false =>
      obtain ⟨first, code, rfl⟩ := List.exists_cons_of_ne_nil hvalid.nonempty
      have hfirst : first ≠ '/' := fun hslash => hvalid.slashless (hslash ▸ List.mem_cons_self ..)
      have hread : readSegment ('/' :: first :: (code ++ rest)) =
          readCode false (first :: (code ++ rest)) := by
        unfold readSegment
        split
        · next heq => exact absurd (List.cons.inj (List.cons.inj heq).2).1 hfirst
        · next heq => rw [(List.cons.inj heq).2]
        · next hno => exact absurd rfl (hno _)
      exact hread.trans (readCode_eq_some.2 ⟨hvalid, rfl, rfl, hstops⟩)

/-- Nothing and a password both look unlike a segment. -/
theorem readSegment_eq_none {tail : List Char} {password : Option String}
    (h : readPassword tail = some password) : readSegment tail = none ∧ Stops tail := by
  unfold readPassword at h
  split at h
  · exact ⟨rfl, nofun⟩
  · exact ⟨rfl, by rintro c ⟨⟩; rfl⟩
  · cases h

theorem parseFrom_of_some {done : List Segment} {s rest : List Char} {segment : Segment}
    (h : readSegment s = some (segment, rest)) :
    parseFrom done s = parseFrom (segment :: done) rest := by
  rw [parseFrom]
  split
  · next heq =>
    obtain ⟨rfl, rfl⟩ := Prod.mk.inj (Option.some.inj (h.symm.trans heq))
    rfl
  · next heq => cases h.symm.trans heq

theorem parseFrom_of_none {done : List Segment} {s : List Char} (h : readSegment s = none) :
    parseFrom done s = (readPassword s).map (⟨done.reverse, ·⟩) := by
  rw [parseFrom]
  split
  · next heq => cases h.symm.trans heq
  · rfl

/-- Behind a segment there is another one, or what stands behind them all. -/
theorem stops_append (segments : List Segment) {tail : List Char} (h : Stops tail) :
    Stops (segments.flatMap Segment.chars ++ tail) := by
  cases segments with
  | nil => exact h
  | cons next _ =>
    intro c hc
    obtain ⟨isHard, code⟩ := next
    cases isHard <;> exact (Option.some.inj hc).symm

/-- Segments that a path starts with are read in turn. -/
theorem parseFrom_append {segments : List Segment} {tail : List Char} {password : Option String}
    (valid : ∀ segment ∈ segments, segment.Valid) (h : readPassword tail = some password)
    (done : List Segment) :
    parseFrom done (segments.flatMap Segment.chars ++ tail) =
      some ⟨done.reverse ++ segments, password⟩ := by
  induction segments generalizing done with
  | nil =>
    rw [List.append_nil]
    show parseFrom done tail = _
    rw [parseFrom_of_none (readSegment_eq_none h).1, h, Option.map_some]
  | cons segment segments ih =>
    have hstops : Stops (segments.flatMap Segment.chars ++ tail) :=
      stops_append segments (readSegment_eq_none h).2
    have hread : readSegment ((segment :: segments).flatMap Segment.chars ++ tail) =
        some (segment, segments.flatMap Segment.chars ++ tail) :=
      readSegment_eq_some.2 ⟨valid segment (List.mem_cons_self ..), by
        rw [List.flatMap_cons, List.append_assoc], hstops⟩
    rw [parseFrom_of_some hread, ih fun s hs => valid s (List.mem_cons_of_mem _ hs),
      List.reverse_cons, List.append_assoc]
    rfl

theorem exists_of_parseFrom {done : List Segment} {s : List Char} {p : DerivationPath}
    (h : parseFrom done s = some p) :
    ∃ segments tail, (∀ segment ∈ segments, segment.Valid) ∧
      s = segments.flatMap Segment.chars ++ tail ∧ readPassword tail = some p.password ∧
        p.segments = done.reverse ++ segments := by
  induction done, s using parseFrom.induct with
  | case1 done s segment rest hread ih =>
    rw [parseFrom_of_some hread] at h
    obtain ⟨segments, tail, hvalid, rfl, hpassword, hsegments⟩ := ih h
    obtain ⟨hsegment, rfl, -⟩ := readSegment_eq_some.1 hread
    refine ⟨segment :: segments, tail, List.forall_mem_cons.2 ⟨hsegment, hvalid⟩, ?_, hpassword, ?_⟩
    · rw [List.flatMap_cons, List.append_assoc]
    · rw [hsegments, List.reverse_cons, List.append_assoc]
      rfl
  | case2 done s hread =>
    rw [parseFrom_of_none hread] at h
    obtain ⟨password, hpassword, rfl⟩ := Option.map_eq_some_iff.1 h
    exact ⟨[], s, nofun, rfl, hpassword, (List.append_nil _).symm⟩

/-- A text is a path exactly if it is written as its segments, and behind them its
password. -/
theorem parse?_eq_some {s : String} {p : DerivationPath} :
    parse? s = some p ↔ (∀ segment ∈ p.segments, segment.Valid) ∧
      ∃ tail, s.toList = p.chars ++ tail ∧ readPassword tail = some p.password := by
  constructor
  · intro h
    obtain ⟨segments, tail, hvalid, hs, hpassword, hsegments⟩ := exists_of_parseFrom h
    obtain rfl : p.segments = segments := hsegments
    exact ⟨hvalid, tail, hs, hpassword⟩
  · rintro ⟨hvalid, tail, hs, hpassword⟩
    rw [parse?, hs]
    exact parseFrom_append hvalid hpassword []

/-! ### Paths without their passwords -/

/-- The path without its password. -/
def withoutPassword (p : DerivationPath) : DerivationPath := { p with password := none }

/-- A path without its password is read as it was. -/
theorem parse?_path {s : String} {p : DerivationPath} (h : parse? s = some p) :
    parse? p.path = some p.withoutPassword := by
  refine parse?_eq_some.2 ⟨(parse?_eq_some.1 h).1, [], ?_, rfl⟩
  rw [path, String.toList_ofList, List.append_nil]
  rfl

theorem parse_eq_ok {s : String} {p : DerivationPath} : parse s = .ok p ↔ parse? s = some p := by
  unfold parse
  cases parse? s <;> simp

theorem withPassword_withoutPassword (p : DerivationPath) :
    p.withoutPassword.withPassword p.password = p := by
  obtain ⟨segments, password⟩ := p
  cases password <;> rfl

end DerivationPath

theorem parse?_root_path : DerivationPath.parse? "" = some ⟨[], none⟩ :=
  DerivationPath.parse?_eq_some.2 ⟨nofun, [], rfl, rfl⟩

theorem parse_root_path : DerivationPath.parse "" = .ok ⟨[], none⟩ :=
  DerivationPath.parse_eq_ok.2 parse?_root_path

end ColdSigner
