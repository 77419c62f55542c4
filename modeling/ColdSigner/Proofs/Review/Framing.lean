import ColdSigner.Proofs.Review.Extensions
import Mathlib.Logic.Basic

/-! How requests are framed.

A signed request is the prelude, the public key of the signer, a body and the
network. `Framing.read_eq_ok` says this of every payload that is framed, and
`decodeRequest_eq_ok` which reader its prelude leads to. -/
namespace ColdSigner

namespace Cursor

/-- A cursor in front of some bytes. -/
def across (offset : Nat) (b : Bytes) : Cursor := ⟨offset, offset + b.length, b, rfl⟩

/-- The region of a part of some bytes. -/
theorem region_append (a b t : Bytes) :
    region (a ++ b ++ t) a.length (a ++ b).length = across a.length b := by
  have hstop : min (a ++ b).length (a ++ b ++ t).length = (a ++ b).length := by
    simp only [List.length_append]
    omega
  have hfirst : min a.length (a ++ b).length = a.length := by
    simp only [List.length_append]
    omega
  refine Cursor.ext ?_ ?_
  · show min a.length (min (a ++ b).length (a ++ b ++ t).length) = a.length
    rw [hstop, hfirst]
  · show ((a ++ b ++ t).take (min (a ++ b).length (a ++ b ++ t).length)).drop
      (min a.length (min (a ++ b).length (a ++ b ++ t).length)) = b
    rw [hstop, hfirst, List.take_left, List.drop_left]

end Cursor

/-! ### The front of a request -/

theorem RequestKind.ofByte?_toByte (k : RequestKind) : ofByte? k.toByte = some k := by
  cases k <;> rfl

theorem RequestKind.toByte_of_ofByte? {b : UInt8} {k : RequestKind} (h : ofByte? b = some k) :
    k.toByte = b := by
  simpa using List.find?_some h

theorem Prelude.decode_eq_ok {payload rest : Bytes} {p : Prelude} :
    Prelude.decode payload = .ok (p, rest) ↔ p.isConsistent = true ∧ payload = p.encode ++ rest := by
  constructor
  · intro h
    unfold decode at h
    split at h
    · next m s k t =>
      split at h
      · cases h
      · next hm =>
        split at h
        · next scheme kind hs hk =>
          dsimp only at h
          split at h
          · next hc =>
            obtain ⟨rfl, rfl⟩ := Prod.mk.inj (Except.ok.inj h)
            refine ⟨hc, ?_⟩
            rw [encode, Scheme.toByte_of_ofByte? hs, RequestKind.toByte_of_ofByte? hk,
              ← not_ne_iff.1 hm]
            rfl
          · cases h
        · cases h
    · cases h
  · intro h
    obtain ⟨hc, rfl⟩ := h
    simp only [encode, decode, List.cons_append, List.nil_append, ne_eq, not_true, if_false,
      Scheme.ofByte?_toByte, RequestKind.ofByte?_toByte]
    exact if_pos hc

theorem FixedBytes.ofBytes?_eq_some {n : Nat} {b : Bytes} {x : FixedBytes n} :
    FixedBytes.ofBytes? n b = some x ↔ x.bytes = b := by
  unfold ofBytes?
  split
  · rw [Option.some.injEq]
    constructor
    · intro h
      subst h
      rfl
    · intro h
      subst h
      rfl
  · next hb =>
    simp only [reduceCtorEq, false_iff]
    intro h
    subst h
    exact hb x.length_eq

theorem PublicKey.ofBytes?_eq_some {s : Scheme} {b : Bytes} {k : PublicKey} :
    PublicKey.ofBytes? s b = some k ↔ k.scheme = s ∧ k.bytes = b := by
  cases s <;> cases k <;> simp [ofBytes?, FixedBytes.ofBytes?_eq_some, scheme, bytes]

theorem PublicKey.ext {k k' : PublicKey} (hs : k.scheme = k'.scheme) (hb : k.bytes = k'.bytes) :
    k = k' :=
  Option.some.inj ((ofBytes?_eq_some.2 ⟨hs, hb⟩).symm.trans (ofBytes?_eq_some.2 ⟨rfl, rfl⟩))

namespace Review

theorem readPrelude_eq_ok {payload : Bytes} {p : Prelude} :
    readPrelude payload = .ok p ↔ p.isConsistent = true ∧ ∃ rest, payload = p.encode ++ rest := by
  unfold readPrelude
  constructor
  · intro h
    split at h
    · next q rest hd =>
      obtain rfl := Except.ok.inj h
      obtain ⟨hc, rfl⟩ := Prelude.decode_eq_ok.1 hd
      exact ⟨hc, rest, rfl⟩
    · cases h
    · cases h
  · intro h
    obtain ⟨hc, rest, rfl⟩ := h
    rw [Prelude.decode_eq_ok.2 ⟨hc, rfl⟩]

/-- The network at the end of a payload. -/
theorem fit_drop_append (a : Bytes) (network : NetworkId) :
    FixedBytes.fit 32 ((a ++ network.bytes).drop ((a ++ network.bytes).length - hashLength)) =
      network := by
  have hlength : (a ++ network.bytes).length - hashLength = a.length := by
    rw [List.length_append, network.length_eq]
    exact Nat.add_sub_cancel ..
  refine FixedBytes.ext ?_
  show List.take 32 (List.drop _ (a ++ network.bytes) ++ List.replicate 32 0) = network.bytes
  rw [hlength, List.drop_left, List.take_left' network.length_eq]

/-- The frame of a signed request is a front of three bytes, the signer, a body and
the network. -/
theorem Framing.read_eq_ok {payload : Bytes} {scheme : Scheme} {f : Framing} :
    Framing.read payload scheme = .ok f ↔
      f.signer.scheme = scheme ∧ ∃ front body : Bytes, front.length = Prelude.length ∧ body ≠ [] ∧
        payload = front ++ f.signer.bytes ++ body ++ f.network.bytes ∧
        f.bodyStart = (front ++ f.signer.bytes).length ∧
        f.bodyStop = (front ++ f.signer.bytes ++ body).length := by
  have hhash : hashLength = 32 := rfl
  simp only [Framing.read, bind_eq_ok, Prod.exists, Cursor.take_eq_ok]
  constructor
  · intro h
    obtain ⟨front, c, ⟨hfront, hc⟩, key, d, ⟨hkey, hd⟩, h⟩ := h
    split at h
    · cases h
    · next signer hs =>
      obtain ⟨rfl, rfl⟩ := PublicKey.ofBytes?_eq_some.1 hs
      have hread := hc.trans hd
      have hoffset : d.offset = (front ++ signer.bytes).length := by
        rw [hread.offset]
        exact Nat.zero_add _
      split at h
      · cases h
      · next hlong =>
        obtain rfl := pure_eq_ok.1 h
        have hpayload : payload = front ++ signer.bytes ++ d.rest := hread.rest
        have hlength : payload.length = d.offset + d.rest.length := by
          rw [hpayload, List.length_append, hoffset]
        obtain ⟨body, last, hrest, hlast⟩ : ∃ body last, d.rest = body ++ last ∧ last.length = 32 :=
          ⟨_, _, (List.take_append_drop (d.rest.length - hashLength) d.rest).symm, by
            rw [List.length_drop]
            omega⟩
        have hwhole : payload = front ++ signer.bytes ++ body ++ (⟨last, hlast⟩ : NetworkId).bytes := by
          rw [List.append_assoc, ← hrest]
          exact hpayload
        have hbody : d.rest.length = body.length + 32 := by rw [hrest, List.length_append, hlast]
        refine ⟨rfl, front, body, hfront, ?_, ?_, hoffset, ?_⟩
        · apply List.ne_nil_of_length_pos
          omega
        · dsimp only
          rw [hwhole, fit_drop_append]
        · show payload.length - hashLength = _
          rw [List.length_append, ← hoffset]
          omega
  · intro h
    obtain ⟨rfl, front, body, hfront, hbody, hpayload, hstart, hstop⟩ := h
    obtain ⟨signer, network, bodyStart, bodyStop⟩ := f
    dsimp only at *
    obtain ⟨c, hc, hrest⟩ : ∃ c, (Cursor.start payload).Consumes front c ∧
        c.rest = signer.bytes ++ (body ++ network.bytes) :=
      Cursor.exists_consumes (by
        rw [← List.append_assoc, ← List.append_assoc]
        exact hpayload)
    obtain ⟨d, hd, hrest⟩ := Cursor.exists_consumes hrest
    refine ⟨front, c, ⟨hfront, hc⟩, signer.bytes, d, ⟨signer.length_bytes, hd⟩, ?_⟩
    rw [PublicKey.ofBytes?_eq_some.2 ⟨rfl, rfl⟩]
    have hoffset : d.offset = bodyStart := by
      rw [hstart, (hc.trans hd).offset]
      exact Nat.zero_add _
    have hlength : payload.length = bodyStop + 32 := by
      rw [hpayload, List.length_append, network.length_eq, hstop]
    have hlong : ¬ payload.length ≤ d.offset + hashLength := by
      have hpos := List.length_pos_iff.2 hbody
      rw [List.length_append, ← hstart] at hstop
      omega
    dsimp only
    rw [if_neg hlong, pure_eq_ok, hoffset, hpayload, fit_drop_append, ← hpayload, hlength, hhash,
      Nat.add_sub_cancel]

/-- The body of a frame, with the cursor in front of it. -/
theorem Framing.body_eq_across {payload a body t : Bytes} {f : Framing}
    (hpayload : payload = a ++ body ++ t) (hstart : f.bodyStart = a.length)
    (hstop : f.bodyStop = (a ++ body).length) : f.body payload = .across a.length body := by
  rw [Framing.body, hstart, hstop, hpayload]
  exact Cursor.region_append ..

theorem Framing.checkScheme_eq_ok {f : Framing} {e : Entry} :
    f.checkScheme e = .ok () ↔ e.specs.scheme = f.signer.scheme := by
  unfold checkScheme
  split
  · next h => exact iff_of_true rfl h
  · next h => exact iff_of_false (by simp) h

/-! ### Dispatch -/

theorem decodeRequest_eq_ok {payload : Bytes} {source : MetadataSource} {l : Limits} {r : Review} :
    decodeRequest payload source l = .ok r ↔ ∃ p, readPrelude payload = .ok p ∧
      ((p.kind = .transaction ∧ readTransaction payload p.scheme source l = .ok r) ∨
        (p.kind = .message ∧ readMessage payload p.scheme source = .ok r) ∨
        (p.kind = .loadMetadata ∧ readUpdate payload = .ok r)) := by
  simp only [decodeRequest, bind_eq_ok]
  refine exists_congr fun p => and_congr_right fun _ => ?_
  cases p.kind <;> simp

theorem decodeKind_eq_ok {kind : RequestKind} {payload : Bytes} {source : MetadataSource} {l : Limits}
    {r : Review} :
    decodeKind kind payload source l = .ok r ↔
      (∃ scheme, readPrelude payload = .ok ⟨scheme, kind⟩) ∧ decodeRequest payload source l = .ok r := by
  simp only [decodeKind, bind_eq_ok]
  constructor
  · intro h
    obtain ⟨p, hp, h⟩ := h
    split at h
    · next hk =>
      subst hk
      exact ⟨⟨p.scheme, hp⟩, h⟩
    · cases h
  · intro h
    obtain ⟨⟨scheme, hp⟩, h⟩ := h
    exact ⟨_, hp, by rwa [if_pos rfl]⟩

end Review

/-! ### What is asked of the metadata -/

/-- Two sources tell the same of a network. -/
def MetadataSource.AgreesOn (a b : MetadataSource) (network : NetworkId) : Prop :=
  (∀ version, a.entry network version = b.entry network version) ∧ a.latest network = b.latest network

namespace Review

/-- Of all networks only the one at the end of a payload is looked up. -/
theorem decodeRequest_congr {payload : Bytes} {a b : MetadataSource} {l : Limits}
    (h : ∀ network : NetworkId, network.bytes <:+ payload → a.AgreesOn b network) :
    decodeRequest payload a l = decodeRequest payload b l := by
  have hnetwork {scheme : Scheme} {f : Framing} (hread : Framing.read payload scheme = .ok f) :
      a.AgreesOn b f.network := by
    obtain ⟨-, front, body, -, -, hpayload, -⟩ := Framing.read_eq_ok.1 hread
    exact h _ ⟨_, hpayload.symm⟩
  have htransaction (scheme : Scheme) :
      readTransaction payload scheme a l = readTransaction payload scheme b l := by
    unfold readTransaction
    cases hread : Framing.read payload scheme with
    | error => rfl
    | ok f => simp only [(hnetwork hread).1, bind, Except.bind]
  have hmessage (scheme : Scheme) : readMessage payload scheme a = readMessage payload scheme b := by
    unfold readMessage
    cases hread : Framing.read payload scheme with
    | error => rfl
    | ok f => simp only [(hnetwork hread).2, bind, Except.bind]
  simp only [decodeRequest, htransaction, hmessage]

end Review

end ColdSigner
