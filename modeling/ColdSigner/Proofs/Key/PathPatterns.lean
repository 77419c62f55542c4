import ColdSigner.Proofs.Key.PathForm
import ColdSigner.Proofs.Text.Pattern

/-! Paths as two patterns find them.

One pattern tells the path of a text from its password, and another one finds the codes of
the junctions in the path. `readByPatterns_eq` says that what they find together is what
`parse` reads at once. Behind the segments of a path neither pattern has a choice, so the
first match is the one with all of them; and whatever the first pattern matches is written as
a path. -/
namespace ColdSigner

open Text (Pattern Match)
open Text.Pattern

namespace DerivationPath

/-! ### Texts of paths -/

/-- A password that a path can end in. -/
structure IsPassword (w : String) : Prop where
  nonempty : w ≠ ""
  oneLine : '\n' ∉ w.toList

/-- A path that can be written. -/
structure WellFormed (p : DerivationPath) : Prop where
  segments : ∀ segment ∈ p.segments, segment.Valid
  password : ∀ w ∈ p.password, IsPassword w

/-- The end of a path, where the password stands. -/
def ending : Option String → String
  | none => ""
  | some w => "///" ++ w

/-- The path as it is written, with its password. -/
def text (p : DerivationPath) : String := p.path ++ ending p.password

theorem toList_ending_some (w : String) :
    (ending (some w)).toList = '/' :: '/' :: '/' :: w.toList := by
  rw [ending, String.toList_append]
  rfl

theorem toList_text (p : DerivationPath) :
    p.text.toList = p.chars ++ (ending p.password).toList := by
  rw [text, String.toList_append, path, String.toList_ofList]

theorem readPassword_eq_some {tail : List Char} {password : Option String} :
    readPassword tail = some password ↔
      tail = (ending password).toList ∧ ∀ w ∈ password, IsPassword w := by
  constructor
  · intro h
    unfold readPassword at h
    split at h
    · obtain rfl := Option.some.inj h
      exact ⟨rfl, nofun⟩
    · next chars =>
      split at h
      · cases h
      · next hchars =>
        obtain ⟨hne, hline⟩ : chars ≠ [] ∧ '\n' ∉ chars := by simpa using hchars
        obtain rfl := Option.some.inj h
        rw [toList_ending_some, String.toList_ofList]
        refine ⟨rfl, fun w hw => ?_⟩
        obtain rfl := Option.some.inj hw
        exact ⟨by simpa using hne, by simpa using hline⟩
    · cases h
  · intro h
    obtain ⟨rfl, hw⟩ := h
    cases password with
    | none => rfl
    | some w =>
      obtain ⟨hne, hline⟩ := hw w rfl
      rw [toList_ending_some, readPassword, if_neg (by simp [hne, hline]), String.ofList_toList]

/-- A text is a path exactly if it is the text of one that can be written. -/
theorem parse_eq_ok_iff {s : String} {p : DerivationPath} :
    parse s = .ok p ↔ p.WellFormed ∧ s = p.text := by
  rw [parse_eq_ok, parse?_eq_some]
  constructor
  · intro ⟨hvalid, tail, hs, hpassword⟩
    obtain ⟨rfl, hw⟩ := readPassword_eq_some.1 hpassword
    exact ⟨⟨hvalid, hw⟩, String.toList_inj.1 (hs.trans p.toList_text.symm)⟩
  · intro ⟨hwell, hs⟩
    rw [hs]
    exact ⟨hwell.segments, _, p.toList_text, readPassword_eq_some.2 ⟨rfl, hwell.password⟩⟩

end DerivationPath

namespace Segment

variable {g : Segment}

theorem cons_tail_chars (g : Segment) : '/' :: g.chars.tail = g.chars := by
  obtain ⟨isHard, code⟩ := g
  cases isHard <;> rfl

theorem chars_ne_nil (g : Segment) : g.chars ≠ [] := by
  rw [← g.cons_tail_chars]
  exact List.cons_ne_nil _ _

/-- The junction is read off what stands behind the first slash. -/
theorem Valid.ofChars_tail (valid : g.Valid) : Junction.ofChars g.chars.tail = g.junction := by
  obtain ⟨isHard, code⟩ := g
  cases isHard with
  | true => rfl
  | false =>
    have hslash : code.head? ≠ some '/' :=
      fun hhead => valid.slashless (List.mem_of_mem_head? hhead)
    show Junction.ofChars code = .soft (Junction.chainCode code)
    unfold Junction.ofChars
    split
    · exact absurd rfl hslash
    · rfl

end Segment

namespace DerivationPath

/-! ### The patterns -/

def slash : Pattern := .one (· == '/')

/-- What stands behind the first slash of a junction, `/?[^/]+`. -/
def junctionCode : Pattern := slash.optional.seq (Pattern.one (· != '/')).many1

/-- A segment, `//?[^/]+`. -/
def segmentPattern : Pattern := slash.seq junctionCode

/-- The end with a password, `///(?P<password>.+)`. -/
def passwordPattern : Pattern :=
  slash.seq (slash.seq (slash.seq (.group "password" (Pattern.one (· != '\n')).many1)))

/-- A path, `^(?P<path>(//?[^/]+)*)(///(?P<password>.+))?$`. -/
def pathPattern : Pattern :=
  (Pattern.group "path" segmentPattern.many).seq (passwordPattern.optional.seq .ending)

/-- A junction, `/(/?[^/]+)`. -/
def junctionPattern : Pattern := slash.seq (.group "junction" junctionCode)

/-- The path, the junctions and the password, as the patterns find them. -/
def readByPatterns (s : String) : Except KeyError (String × List Junction × Option String) :=
  match pathPattern.first? s.toList with
  | none => .error .invalidPath
  | some m =>
    let path := (m.group? "path").getD []
    let codes := (junctionPattern.findAll path).filterMap (·.group? "junction")
    .ok (String.ofList path, codes.map Junction.ofChars, (m.group? "password").map String.ofList)

/-! ### What is matched is a path -/

variable {m : Match} {s tail : List Char}

theorem taken_slash (h : m ∈ slash.ways s) : m.taken = ['/'] := by
  obtain ⟨c, rest, -, hc, rfl⟩ := mem_ways_one.1 h
  rw [beq_iff_eq.1 hc]

theorem rest_slash (h : m ∈ slash.ways ('/' :: s)) : m.rest = s := by
  obtain ⟨c, rest, hs, -, rfl⟩ := mem_ways_one.1 h
  exact (List.cons.inj hs).2.symm

theorem taken_segmentPattern (h : m ∈ segmentPattern.ways s) :
    ∃ g : Segment, g.Valid ∧ m.taken = g.chars := by
  obtain ⟨x, hx, y, hy, rfl⟩ := mem_ways_seq.1 h
  obtain ⟨u, hu, v, hv, rfl⟩ := mem_ways_seq.1 hy
  obtain ⟨hne, hcode⟩ := taken_many1_one hv
  have valid (isHard : Bool) : (⟨isHard, v.taken⟩ : Segment).Valid :=
    ⟨hne, fun hmem => by simpa using hcode '/' hmem⟩
  obtain hslash | rfl := mem_ways_optional.1 hu
  · refine ⟨⟨true, v.taken⟩, valid true, ?_⟩
    show x.taken ++ (u.taken ++ v.taken) = _
    rw [taken_slash hx, taken_slash hslash]
    rfl
  · refine ⟨⟨false, v.taken⟩, valid false, ?_⟩
    show x.taken ++ ([] ++ v.taken) = _
    rw [taken_slash hx]
    rfl

theorem taken_many_segmentPattern (h : m ∈ segmentPattern.many.ways s) :
    ∃ segments : List Segment, (∀ g ∈ segments, g.Valid) ∧
      m.taken = segments.flatMap Segment.chars := by
  refine taken_many (P := fun t => ∃ segments : List Segment, (∀ g ∈ segments, g.Valid) ∧
    t = segments.flatMap Segment.chars) ⟨[], nofun, rfl⟩ (fun s x hx t ht => ?_) h
  obtain ⟨segments, hvalid, rfl⟩ := ht
  obtain ⟨g, hg, htaken⟩ := taken_segmentPattern hx
  exact ⟨g :: segments, List.forall_mem_cons.2 ⟨hg, hvalid⟩, by rw [htaken, List.flatMap_cons]⟩

theorem taken_passwordPattern (h : m ∈ passwordPattern.ways s) :
    ∃ w, IsPassword w ∧ m.taken = (ending (some w)).toList := by
  obtain ⟨x, hx, y, hy, rfl⟩ := mem_ways_seq.1 h
  obtain ⟨x', hx', y', hy', rfl⟩ := mem_ways_seq.1 hy
  obtain ⟨x'', hx'', y'', hy'', rfl⟩ := mem_ways_seq.1 hy'
  obtain ⟨w, hw, rfl⟩ := mem_ways_group.1 hy''
  obtain ⟨hne, hline⟩ := taken_many1_one hw
  refine ⟨String.ofList w.taken, ⟨by simpa using hne, fun hmem => ?_⟩, ?_⟩
  · rw [String.toList_ofList] at hmem
    simpa using hline '\n' hmem
  · show x.taken ++ (x'.taken ++ (x''.taken ++ w.taken)) = _
    rw [taken_slash hx, taken_slash hx', taken_slash hx'']
    simp [ending]

/-- What the first pattern matches is the text of a path. -/
theorem exists_of_mem_pathPattern {s : String} (h : m ∈ pathPattern.ways s.toList) :
    ∃ p : DerivationPath, p.WellFormed ∧ s = p.text := by
  obtain ⟨x, hx, y, hy, rfl⟩ := mem_ways_seq.1 h
  obtain ⟨path, hmany, rfl⟩ := mem_ways_group.1 hx
  obtain ⟨u, hu, v, hv, rfl⟩ := mem_ways_seq.1 hy
  obtain ⟨segments, hsegments, hpath⟩ := taken_many_segmentPattern hmany
  have hs : path.taken ++ path.rest = s.toList := taken_append_rest hmany
  have hend : u.rest = [] := (mem_ways_ending.1 hv).1
  obtain ⟨password, hpassword, hrest⟩ :
      ∃ password, (∀ w ∈ password, IsPassword w) ∧ path.rest = (ending password).toList := by
    obtain hu | rfl := mem_ways_optional.1 hu
    · obtain ⟨w, hw, htaken⟩ := taken_passwordPattern hu
      have hsplit : u.taken ++ u.rest = path.rest := taken_append_rest hu
      rw [hend, List.append_nil, htaken] at hsplit
      exact ⟨some w, by simpa using hw, hsplit.symm⟩
    · exact ⟨none, nofun, hend⟩
  refine ⟨⟨segments, password⟩, ⟨hsegments, hpassword⟩, String.toList_inj.1 ?_⟩
  rw [toList_text, ← hs, hpath, hrest]
  rfl

/-! ### A path is matched with all of its segments -/

theorem first?_slash : slash.first? ('/' :: s) = some ⟨['/'], [], s⟩ := first?_one_cons rfl

theorem stops_slash (s : List Char) : Stops ('/' :: s) := fun _ hc => (Option.some.inj hc).symm

theorem Stops.not_code (h : Stops tail) : ∀ c ∈ tail.head?, (c != '/') = false := by
  intro c hc
  rw [h c hc]
  rfl

theorem first?_junctionCode {g : Segment} (valid : g.Valid) (h : Stops tail) :
    junctionCode.first? (g.chars.tail ++ tail) = some ⟨g.chars.tail, [], tail⟩ := by
  have hcode := first?_many1_one (p := (· != '/')) valid.nonempty
    (fun c hc => by simpa using ne_of_mem_of_not_mem hc valid.slashless) h.not_code
  obtain ⟨isHard, code⟩ := g
  cases isHard with
  | true => exact first?_seq (first?_optional first?_slash) hcode
  | false =>
    have hslash : slash.first? (code ++ tail) = none := by
      obtain ⟨c, code, rfl⟩ := List.exists_cons_of_ne_nil valid.nonempty
      refine first?_one_eq_none fun d hd => ?_
      obtain rfl := Option.some.inj hd
      simpa using ne_of_mem_of_not_mem (List.mem_cons_self ..) valid.slashless
    exact first?_seq (first?_optional_of_none hslash) hcode

theorem first?_segmentPattern {g : Segment} (valid : g.Valid) (h : Stops tail) :
    segmentPattern.first? (g.chars ++ tail) = some ⟨g.chars, [], tail⟩ := by
  rw [← g.cons_tail_chars]
  exact first?_seq first?_slash (first?_junctionCode valid h)

/-- What stands behind the segments of a path is not a segment. -/
theorem first?_segmentPattern_ending (password : Option String) :
    segmentPattern.first? (ending password).toList = none := by
  cases password with
  | none => rfl
  | some w =>
    rw [toList_ending_some]
    refine first?_seq_eq_none fun x hx => first?_seq_eq_none fun y hy => ?_
    rw [rest_slash hx] at hy
    -- the third slash is no code, and neither is the second one
    have hslash : Stops y.rest := by
      obtain hy | rfl := mem_ways_optional.1 hy
      · rw [rest_slash hy]
        exact stops_slash _
      · exact stops_slash _
    exact first?_many1_one_eq_none hslash.not_code

theorem stops_ending (password : Option String) : Stops (ending password).toList := by
  cases password with
  | none => exact nofun
  | some w =>
    rw [toList_ending_some]
    exact stops_slash _

theorem first?_many_segmentPattern {segments : List Segment}
    (valid : ∀ g ∈ segments, g.Valid) (password : Option String) :
    segmentPattern.many.first? (segments.flatMap Segment.chars ++ (ending password).toList) =
      some ⟨segments.flatMap Segment.chars, [], (ending password).toList⟩ := by
  induction segments with
  | nil => exact first?_many_of_none (first?_segmentPattern_ending password)
  | cons g segments ih =>
    obtain ⟨hg, hsegments⟩ := List.forall_mem_cons.1 valid
    have hfirst := first?_segmentPattern hg (stops_append segments (stops_ending password))
    rw [List.flatMap_cons, List.append_assoc]
    exact first?_many hfirst g.chars_ne_nil (ih hsegments)

theorem first?_passwordPattern {w : String} (h : IsPassword w) :
    passwordPattern.first? (ending (some w)).toList =
      some ⟨(ending (some w)).toList, [("password", w.toList)], []⟩ := by
  have hline : ∀ c ∈ w.toList, (c != '\n') = true :=
    fun c hc => by simpa using ne_of_mem_of_not_mem hc h.oneLine
  have hw := first?_many1_one (p := (· != '\n')) (s := []) (by simpa using h.nonempty) hline nofun
  rw [List.append_nil] at hw
  rw [toList_ending_some]
  exact first?_seq first?_slash (first?_seq first?_slash (first?_seq first?_slash (first?_group _ hw)))

/-- The groups of the first pattern are the path and the password. -/
theorem first?_pathPattern {p : DerivationPath} (h : p.WellFormed) :
    ∃ m, pathPattern.first? p.text.toList = some m ∧ m.group? "path" = some p.chars ∧
      m.group? "password" = p.password.map String.toList := by
  obtain ⟨segments, password⟩ := p
  have hpath := first?_group "path" (first?_many_segmentPattern h.segments password)
  rw [toList_text]
  cases password with
  | none =>
    exact ⟨_, first?_seq hpath (first?_seq (first?_optional_of_none rfl) first?_ending), rfl, rfl⟩
  | some w =>
    have hpassword := first?_optional (first?_passwordPattern (h.password w rfl))
    exact ⟨_, first?_seq hpath (first?_seq hpassword first?_ending), rfl, rfl⟩

/-- The second pattern finds the junctions, one after the other. -/
theorem findAll_junctionPattern {segments : List Segment} (valid : ∀ g ∈ segments, g.Valid) :
    (junctionPattern.findAll (segments.flatMap Segment.chars)).filterMap (·.group? "junction") =
      segments.map (·.chars.tail) := by
  induction segments with
  | nil => rfl
  | cons g segments ih =>
    obtain ⟨hg, hsegments⟩ := List.forall_mem_cons.1 valid
    have hstops : Stops (segments.flatMap Segment.chars ++ []) := stops_append segments nofun
    rw [List.append_nil] at hstops
    have hfirst : junctionPattern.first? (g.chars ++ segments.flatMap Segment.chars) =
        some ⟨g.chars, [("junction", g.chars.tail)], segments.flatMap Segment.chars⟩ := by
      rw [← g.cons_tail_chars]
      exact first?_seq first?_slash (first?_group _ (first?_junctionCode hg hstops))
    rw [List.flatMap_cons, findAll_of_first? hfirst g.chars_ne_nil, List.map_cons, ← ih hsegments]
    rfl

/-- The patterns find what `parse` reads. -/
theorem readByPatterns_eq (s : String) :
    readByPatterns s = (parse s).map fun p => (p.path, p.junctions, p.password) := by
  unfold readByPatterns
  cases hparse : parse s with
  | error e =>
    cases hfirst : pathPattern.first? s.toList with
    | some m =>
      obtain ⟨p, hp⟩ := exists_of_mem_pathPattern (List.mem_of_mem_head? hfirst)
      cases hparse.symm.trans (parse_eq_ok_iff.2 hp)
    | none =>
      unfold parse at hparse
      split at hparse
      · cases hparse
      · cases hparse
        rfl
  | ok p =>
    obtain ⟨hp, rfl⟩ := parse_eq_ok_iff.1 hparse
    obtain ⟨m, hm, hpath, hpassword⟩ := first?_pathPattern hp
    have hjunctions : (p.segments.map (·.chars.tail)).map Junction.ofChars = p.junctions := by
      rw [List.map_map]
      exact List.map_congr_left fun g hg => (hp.segments g hg).ofChars_tail
    have htext : (p.password.map String.toList).map String.ofList = p.password := by
      cases p.password <;> simp
    simp only [hm, hpath, hpassword, Option.getD_some, htext]
    rw [chars, findAll_junctionPattern hp.segments, hjunctions]
    rfl

/-! ### Nothing is lost -/

/-- The path is these segments, one behind the other. -/
structure DividedInto (path : String) (segments : List Segment) : Prop where
  valid : ∀ g ∈ segments, g.Valid
  path_eq : path = String.ofList (segments.flatMap Segment.chars)

theorem DividedInto.parse_eq {path : String} {segments : List Segment}
    (h : DividedInto path segments) : parse path = .ok ⟨segments, none⟩ :=
  parse_eq_ok_iff.2 ⟨⟨h.valid, nofun⟩, h.path_eq.trans String.append_empty.symm⟩

/-- A path is divided into segments in one way. -/
theorem DividedInto.unique {path : String} {segments others : List Segment}
    (h : DividedInto path segments) (h' : DividedInto path others) : others = segments :=
  congrArg DerivationPath.segments (Except.ok.inj (h'.parse_eq.symm.trans h.parse_eq))

theorem WellFormed.withPassword {p : DerivationPath} (h : p.WellFormed) {w : String}
    (hw : IsPassword w) : (p.withPassword (some w)).WellFormed :=
  ⟨h.segments, fun _ hv => Option.some.inj hv ▸ hw⟩

theorem isHard_junctions (p : DerivationPath) :
    p.junctions.map Junction.isHard = p.segments.map Segment.isHard := by
  rw [junctions, List.map_map]
  refine List.map_congr_left fun g _ => ?_
  obtain ⟨isHard, code⟩ := g
  cases isHard <;> rfl

/-- A text is a path exactly if it is written as segments, and a password behind them if
there is any. The path and the password that are read make up the text. The path is divided
into segments in one way, and the junctions are read off these in turn. A password behind a
path without one is read as the password of that path. The two patterns find the same. -/
theorem parse_lossless (s : String) :
    ((∃ p, parse s = .ok p) ↔ ∃ path segments password, DividedInto path segments ∧
        (∀ w ∈ password, IsPassword w) ∧ s = path ++ ending password) ∧
      (∀ p, parse s = .ok p → s = p.path ++ ending p.password ∧
        ∃ segments, DividedInto p.path segments ∧
          (∀ others, DividedInto p.path others → others = segments) ∧
          p.junctions = segments.map (fun g => Junction.ofChars g.chars.tail) ∧
          p.junctions.map Junction.isHard = segments.map Segment.isHard) ∧
      (∀ p w, parse s = .ok p → p.password = none → IsPassword w →
        parse (s ++ "///" ++ w) = .ok (p.withPassword (some w))) ∧
      readByPatterns s = (parse s).map fun p => (p.path, p.junctions, p.password) := by
  refine ⟨⟨?_, ?_⟩, fun p hp => ?_, fun p w hp hnone hw => ?_, readByPatterns_eq s⟩
  · intro ⟨p, hp⟩
    obtain ⟨hwell, hs⟩ := parse_eq_ok_iff.1 hp
    exact ⟨p.path, p.segments, p.password, ⟨hwell.segments, rfl⟩, hwell.password, hs⟩
  · intro ⟨path, segments, password, hpath, hpassword, hs⟩
    rw [hpath.path_eq] at hs
    exact ⟨⟨segments, password⟩, parse_eq_ok_iff.2 ⟨⟨hpath.valid, hpassword⟩, hs⟩⟩
  · obtain ⟨hwell, hs⟩ := parse_eq_ok_iff.1 hp
    have hpath : DividedInto p.path p.segments := ⟨hwell.segments, rfl⟩
    refine ⟨hs, p.segments, hpath, fun others => hpath.unique, ?_, p.isHard_junctions⟩
    exact List.map_congr_left fun g hg => (hwell.segments g hg).ofChars_tail.symm
  · obtain ⟨hwell, rfl⟩ := parse_eq_ok_iff.1 hp
    refine parse_eq_ok_iff.2 ⟨hwell.withPassword hw, ?_⟩
    obtain ⟨segments, password⟩ := p
    obtain rfl : password = none := hnone
    show path ⟨segments, none⟩ ++ "" ++ "///" ++ w = path ⟨segments, some w⟩ ++ ("///" ++ w)
    rw [String.append_empty, String.append_assoc]
    rfl

/-- The path `//polkadot/soft//0`. -/
def samplePath : DerivationPath :=
  ⟨[⟨true, "polkadot".toList⟩, ⟨false, "soft".toList⟩, ⟨true, "0".toList⟩], none⟩

/-- Slashes in a password are not taken for junctions. -/
theorem parse_lossless_sample : parse "//polkadot/soft//0" = .ok samplePath ∧
    samplePath.junctions.map Junction.isHard = [true, false, true] ∧ IsPassword "a///b" ∧
    parse ("//polkadot/soft//0" ++ "///" ++ "a///b") = .ok (samplePath.withPassword (some "a///b")) ∧
    readByPatterns "//polkadot/soft//0" = .ok ("//polkadot/soft//0", samplePath.junctions, none) := by
  have hparse : parse "//polkadot/soft//0" = .ok samplePath :=
    parse_eq_ok_iff.2 ⟨⟨by decide, nofun⟩, by decide⟩
  have hslashes : IsPassword "a///b" := ⟨by decide, by decide⟩
  obtain ⟨-, -, hpassword, hpatterns⟩ := parse_lossless "//polkadot/soft//0"
  refine ⟨hparse, rfl, hslashes, hpassword _ _ hparse rfl hslashes, ?_⟩
  rw [hpatterns, hparse]
  have hpath : samplePath.path = "//polkadot/soft//0" := by decide
  rw [← hpath]
  rfl

end DerivationPath

end ColdSigner
