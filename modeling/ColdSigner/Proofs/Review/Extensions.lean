import ColdSigner.Proofs.Review.CardTree
import ColdSigner.Proofs.Wire.CompactForm
import ColdSigner.Review.Request

/-! What is signed along with a call.

The extensions of a transaction fill the region behind the call. Each has one form
in bytes, so what was read tells the bytes of the region, and the cards of the
extensions are laid over them. -/
namespace ColdSigner.Review

/-! ### Mortality -/

/-- The sixteen bits of a mortal era. -/
def Era.number (period phase : Nat) : Nat := period.log2 - 1 + 16 * (phase / max (period / 4096) 1)

def Era.encode : Era → Bytes
  | .immortal => [0]
  | .mortal period phase => Bytes.ofNat 2 (Era.number period phase)

/-- A period is a power of two, from four on, and a phase lies below it in its steps. -/
def Era.Valid : Era → Prop
  | .immortal => True
  | .mortal period phase =>
    (∃ k, 2 ≤ k ∧ k ≤ 16 ∧ period = 2 ^ k) ∧ phase < period ∧ max (period / 4096) 1 ∣ phase

theorem two_shiftLeft (n : Nat) : 2 <<< n = 2 ^ (n + 1) := by
  rw [Nat.shiftLeft_eq, Nat.mul_comm, ← Nat.pow_succ]

/-- A period has no more steps than twelve bits count. -/
theorem period_le (k : Nat) : 2 ^ k ≤ 4096 * max (2 ^ k / 4096) 1 := by
  rcases Nat.le_total k 12 with hk | hk
  · have hle : 2 ^ k ≤ 2 ^ 12 := Nat.pow_le_pow_right (by decide) hk
    omega
  · obtain ⟨j, rfl⟩ := Nat.exists_eq_add_of_le hk
    rw [Nat.pow_add]
    omega

theorem Era.number_spec {period phase k : Nat} (hk : 2 ≤ k) (hk' : k ≤ 16) (hperiod : period = 2 ^ k)
    (hphase : phase < period) :
    Era.number period phase % 16 = k - 1 ∧
      Era.number period phase / 16 = phase / max (period / 4096) 1 ∧
      Era.number period phase < 256 ^ 2 := by
  have hle := period_le k
  rw [← hperiod] at hle
  have hsteps : phase / max (period / 4096) 1 < 4096 := by
    rw [Nat.div_lt_iff_lt_mul (by omega)]
    omega
  have hlog : period.log2 = k := by rw [hperiod, Nat.log2_two_pow]
  rw [Era.number, hlog]
  omega

theorem Era.ofNumber?_eq_some {n : Nat} {era : Era} :
    Era.ofNumber? n = some era ↔
      ∃ period phase, era = .mortal period phase ∧ era.Valid ∧ Era.number period phase = n := by
  unfold Era.ofNumber?
  dsimp only
  rw [two_shiftLeft]
  constructor
  · intro h
    split at h
    · cases h
    · next hvalid =>
      obtain rfl := Option.some.inj h
      have hfour : n % 16 ≠ 0 := fun hzero => hvalid (.inl (by rw [hzero]; decide))
      refine ⟨_, _, rfl, ⟨⟨n % 16 + 1, by omega, by omega, rfl⟩, by omega, Nat.dvd_mul_left ..⟩, ?_⟩
      rw [Era.number, Nat.log2_two_pow, Nat.mul_div_cancel _ (by omega)]
      omega
  · rintro ⟨period, phase, rfl, ⟨⟨k, hk, hk', hperiod⟩, hphase, hstep⟩, rfl⟩
    obtain ⟨hlow, hhigh, -⟩ := Era.number_spec hk hk' hperiod hphase
    have hk1 : k - 1 + 1 = k := by omega
    have hfour : 2 ^ 2 ≤ 2 ^ k := Nat.pow_le_pow_right (by decide) hk
    rw [hlow, hhigh, hk1, ← hperiod, Nat.div_mul_cancel hstep, if_neg (by omega)]

/-- The first byte of a mortal era is not zero, since its period is not. -/
theorem Era.encode_mortal {period phase : Nat} (h : (Era.mortal period phase).Valid) :
    ∃ x y : UInt8, x ≠ 0 ∧ Era.encode (.mortal period phase) = [x, y] ∧
      x.toNat + 256 * y.toNat = Era.number period phase := by
  obtain ⟨⟨k, hk, hk', hperiod⟩, hphase, -⟩ := h
  obtain ⟨hlow, -, hlt⟩ := Era.number_spec hk hk' hperiod hphase
  have hnumber := Bytes.toNat_ofNat_of_lt hlt
  obtain ⟨x, y, hxy⟩ : ∃ x y, Bytes.ofNat 2 (Era.number period phase) = [x, y] := ⟨_, _, rfl⟩
  rw [hxy] at hnumber
  have hsum : x.toNat + 256 * y.toNat = Era.number period phase := by
    simpa [Bytes.toNat] using hnumber
  refine ⟨x, y, ?_, hxy, hsum⟩
  rintro rfl
  have hzero : (0 : UInt8).toNat = 0 := rfl
  omega

/-- An era is read where a valid one is written. -/
theorem readEra_eq_ok {c d : Cursor} {era : Era} :
    readEra c = .ok (era, d) ↔ era.Valid ∧ c.Consumes era.encode d := by
  simp only [readEra, bind_eq_ok, Prod.exists, Cursor.number_eq_ok]
  constructor
  · intro h
    obtain ⟨first, c', ⟨a, ha, rfl, hc⟩, h⟩ := h
    obtain ⟨x, rfl⟩ := List.length_eq_one_iff.1 ha
    split at h
    · next hzero =>
      obtain ⟨rfl, rfl⟩ := Prod.mk.inj (pure_eq_ok.1 h)
      have hx : x = 0 := by
        rw [← UInt8.toNat_inj]
        simpa [Bytes.toNat] using hzero
      subst hx
      exact ⟨trivial, hc⟩
    · simp only [bind_eq_ok, Prod.exists, Cursor.number_eq_ok] at h
      obtain ⟨second, d', ⟨b, hb, rfl, hd⟩, h⟩ := h
      obtain ⟨y, rfl⟩ := List.length_eq_one_iff.1 hb
      split at h
      · next era' hera =>
        obtain ⟨rfl, rfl⟩ := Prod.mk.inj (pure_eq_ok.1 h)
        obtain ⟨period, phase, rfl, hvalid, hn⟩ := Era.ofNumber?_eq_some.1 hera
        have hbytes : Era.encode (.mortal period phase) = [x, y] := by
          rw [Era.encode, hn]
          exact Bytes.ofNat_toNat [x, y]
        rw [hbytes]
        exact ⟨hvalid, hc.trans hd⟩
      · cases h
  · rintro ⟨hvalid, hc⟩
    cases era with
    | immortal => exact ⟨0, d, ⟨[0], rfl, rfl, hc⟩, rfl⟩
    | mortal period phase =>
      obtain ⟨x, y, hx, hbytes, hsum⟩ := Era.encode_mortal hvalid
      rw [hbytes] at hc
      obtain ⟨c', hc', hd⟩ := Cursor.Consumes.split (a := [x]) hc
      have hfirst : x.toNat ≠ 0 := fun h => hx (UInt8.toNat_inj.1 h)
      refine ⟨x.toNat, c', ⟨[x], rfl, Nat.add_zero _, hc'⟩, ?_⟩
      rw [if_neg hfirst]
      refine bind_eq_ok.2 ⟨(y.toNat, d), Cursor.number_eq_ok.2 ⟨[y], rfl, Nat.add_zero _, hd⟩, ?_⟩
      dsimp only
      rw [hsum, Era.ofNumber?_eq_some.2 ⟨period, phase, rfl, hvalid, rfl⟩]
      rfl

theorem locate_eq_ok {α : Type} {read : Cursor → Except DecodeFailure (α × Cursor)} {c d : Cursor}
    {x : Located α} :
    locate c read = .ok (x, d) ↔ read c = .ok (x.value, d) ∧ x.span = ⟨c.offset, d.offset⟩ := by
  simp only [locate, bind_eq_ok, pure_eq_ok, Prod.exists, Prod.mk.injEq]
  constructor
  · intro h
    obtain ⟨v, d', h, rfl, rfl⟩ := h
    exact ⟨h, rfl⟩
  · intro h
    obtain ⟨h, hs⟩ := h
    exact ⟨x.value, d, h, by rw [← hs], rfl⟩

/-! ### Extensions -/

/-- The extensions as they are written. -/
def Extensions.encode (x : Extensions) : Bytes :=
  x.era.value.encode ++ Wire.Compact.encode x.nonce.value ++ Wire.Compact.encode x.tip.value ++
    Bytes.ofNat 4 x.specVersion.value ++ Bytes.ofNat 4 x.txVersion.value ++ x.genesis.value ++
    x.block.value

/-- What reading the extensions of a region says about them. -/
structure Extensions.Reads (x : Extensions) (c : Cursor) : Prop where
  rest : c.rest = x.encode
  era : x.era.value.Valid
  nonce : x.nonce.value < 256 ^ 16
  tip : x.tip.value < 256 ^ 16
  specVersion : x.specVersion.value < 256 ^ 4
  txVersion : x.txVersion.value < 256 ^ 4
  genesis : x.genesis.value.length = hashLength
  block : x.block.value.length = hashLength
  laid : ∀ specs, Laid 0 c.offset c.stop (x.cards specs)

theorem Extensions.reads {x : Extensions} {c : Cursor} (h : Extensions.read c = .ok x) : x.Reads c := by
  simp only [Extensions.read, bind_eq_ok, Prod.exists, locate_eq_ok, Cursor.integer_eq_ok,
    Cursor.take_eq_ok] at h
  obtain ⟨era, c₁, ⟨hera, sera⟩, nonce, c₂, ⟨⟨lnonce, hnonce⟩, snonce⟩, tip, c₃, ⟨⟨ltip, htip⟩, stip⟩,
    spec, c₄, ⟨hspec, sspec⟩, tx, c₅, ⟨htx, stx⟩, genesis, c₆, ⟨⟨lgenesis, hgenesis⟩, sgenesis⟩,
    block, c₇, ⟨⟨lblock, hblock⟩, sblock⟩, h⟩ := h
  split at h
  · next hend =>
    obtain rfl := pure_eq_ok.1 h
    obtain ⟨vera, hera⟩ := readEra_eq_ok.1 hera
    obtain ⟨lspec, hspec⟩ := Cursor.consumes_of_number hspec
    obtain ⟨ltx, htx⟩ := Cursor.consumes_of_number htx
    have hall := (((((hera.trans hnonce).trans htip).trans hspec).trans htx).trans
      hgenesis).trans hblock
    refine ⟨?_, vera, lnonce, ltip, lspec, ltx, lgenesis, lblock, fun specs => ?_⟩
    · rw [hall.rest, Cursor.remaining_eq_zero.1 hend, List.append_nil]
      rfl
    · rw [← hall.stop_eq, ← Cursor.offset_eq_stop hend, Extensions.cards, sera, snonce, stip, sspec,
        stx, sgenesis, sblock]
      exact .cons (.leaf hera.offset_le) (.cons (.leaf hnonce.offset_le)
        (.cons (.leaf htip.offset_le) (.cons (.leaf hspec.offset_le) (.cons (.leaf htx.offset_le)
          (.cons (.leaf hgenesis.offset_le) (.leaf hblock.offset_le))))))
  · cases h

/-- The extensions apart from where they stand. -/
structure Extensions.Values where
  era : Era
  nonce : Nat
  tip : Nat
  specVersion : UInt32
  txVersion : UInt32
  genesis : FixedBytes 32
  block : FixedBytes 32

namespace Extensions.Values

def encode (v : Values) : Bytes :=
  v.era.encode ++ Wire.Compact.encode v.nonce ++ Wire.Compact.encode v.tip ++
    Bytes.ofNat 4 v.specVersion.toNat ++ Bytes.ofNat 4 v.txVersion.toNat ++ v.genesis.bytes ++
    v.block.bytes

structure Valid (v : Values) : Prop where
  era : v.era.Valid
  nonce : v.nonce < 256 ^ 16
  tip : v.tip < 256 ^ 16

/-- The extensions have these values. -/
structure Of (v : Values) (x : Extensions) : Prop where
  era : x.era.value = v.era
  nonce : x.nonce.value = v.nonce
  tip : x.tip.value = v.tip
  specVersion : x.specVersion.value = v.specVersion.toNat
  txVersion : x.txVersion.value = v.txVersion.toNat
  genesis : x.genesis.value = v.genesis.bytes
  block : x.block.value = v.block.bytes

theorem Of.encode {v : Values} {x : Extensions} (h : v.Of x) : x.encode = v.encode := by
  rw [Extensions.encode, Values.encode, h.era, h.nonce, h.tip, h.specVersion, h.txVersion, h.genesis,
    h.block]

end Extensions.Values

/-- A number of four bytes. -/
theorem number_four_eq_ok {c d : Cursor} {v : UInt32} :
    c.number 4 = .ok (v.toNat, d) ↔ c.Consumes (Bytes.ofNat 4 v.toNat) d := by
  constructor
  · exact fun h => (Cursor.consumes_of_number h).2
  · intro h
    exact Cursor.number_eq_ok.2 ⟨_, Bytes.length_ofNat .., Bytes.toNat_ofNat_of_lt v.toNat_lt, h⟩

/-- The extensions are read from the region that valid values fill. -/
theorem Extensions.exists_read {c : Cursor} {v : Values} (valid : v.Valid) (h : c.rest = v.encode) :
    ∃ x, Extensions.read c = .ok x ∧ v.Of x := by
  simp only [Values.encode, List.append_assoc] at h
  obtain ⟨c₁, hera, h⟩ := Cursor.exists_consumes h
  obtain ⟨c₂, hnonce, h⟩ := Cursor.exists_consumes h
  obtain ⟨c₃, htip, h⟩ := Cursor.exists_consumes h
  obtain ⟨c₄, hspec, h⟩ := Cursor.exists_consumes h
  obtain ⟨c₅, htx, h⟩ := Cursor.exists_consumes h
  obtain ⟨c₆, hgenesis, h⟩ := Cursor.exists_consumes h
  obtain ⟨c₇, hblock, h⟩ := Cursor.exists_consumes (h.trans (List.append_nil _).symm)
  let x : Extensions := {
    era := ⟨v.era, ⟨c.offset, c₁.offset⟩⟩
    nonce := ⟨v.nonce, ⟨c₁.offset, c₂.offset⟩⟩
    tip := ⟨v.tip, ⟨c₂.offset, c₃.offset⟩⟩
    specVersion := ⟨v.specVersion.toNat, ⟨c₃.offset, c₄.offset⟩⟩
    txVersion := ⟨v.txVersion.toNat, ⟨c₄.offset, c₅.offset⟩⟩
    genesis := ⟨v.genesis.bytes, ⟨c₅.offset, c₆.offset⟩⟩
    block := ⟨v.block.bytes, ⟨c₆.offset, c₇.offset⟩⟩ }
  refine ⟨x, ?_, ⟨rfl, rfl, rfl, rfl, rfl, rfl, rfl⟩⟩
  simp only [Extensions.read, bind_eq_ok, Prod.exists, locate_eq_ok]
  refine ⟨x.era, c₁, ⟨readEra_eq_ok.2 ⟨valid.era, hera⟩, rfl⟩, x.nonce, c₂,
    ⟨Cursor.integer_eq_ok.2 ⟨valid.nonce, hnonce⟩, rfl⟩, x.tip, c₃,
    ⟨Cursor.integer_eq_ok.2 ⟨valid.tip, htip⟩, rfl⟩, x.specVersion, c₄,
    ⟨number_four_eq_ok.2 hspec, rfl⟩, x.txVersion, c₅, ⟨number_four_eq_ok.2 htx, rfl⟩, x.genesis, c₆,
    ⟨Cursor.take_eq_ok.2 ⟨v.genesis.length_eq, hgenesis⟩, rfl⟩, x.block, c₇,
    ⟨Cursor.take_eq_ok.2 ⟨v.block.length_eq, hblock⟩, rfl⟩, ?_⟩
  rw [if_pos (Cursor.remaining_eq_zero.2 h)]
  rfl

theorem Extensions.Reads.exists_values {x : Extensions} {c : Cursor} (h : x.Reads c) :
    ∃ v : Values, v.Valid ∧ v.Of x := by
  refine ⟨⟨x.era.value, x.nonce.value, x.tip.value, .ofNat x.specVersion.value,
    .ofNat x.txVersion.value, ⟨x.genesis.value, h.genesis⟩, ⟨x.block.value, h.block⟩⟩,
    ⟨h.era, h.nonce, h.tip⟩, ⟨rfl, rfl, rfl, ?_, ?_, rfl, rfl⟩⟩
  · exact (UInt32.toNat_ofNat_of_lt' h.specVersion).symm
  · exact (UInt32.toNat_ofNat_of_lt' h.txVersion).symm

end ColdSigner.Review
