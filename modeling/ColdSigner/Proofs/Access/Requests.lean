import ColdSigner.Proofs.Access.Blobs
import ColdSigner.Proofs.Access.Values
import ColdSigner.Proofs.Review.Transaction

/-! Requests, read with checks.

The readers of requests again, over windows: one over the whole payload for the front,
and one for each region that lengths of the payload cut out of it.
`decoding_stays_inside` says of every payload that all accesses and all failures are
inside of it. -/
namespace ColdSigner.Checked

open Review

/-! ### The front of a payload -/

def readPrelude (payload : Bytes) : Guarded DecodeFailure Prelude := do
  if payload.length < Prelude.length then failAt payload ⟨.unexpectedEnd, 0, none⟩
  else if (← itemAt payload 0) ≠ Prelude.magic then failAt payload ⟨.invalidPrelude, 0, none⟩
  else
    let schemeByte ← itemAt (← slice payload 1 payload.length) 0
    match Scheme.ofByte? schemeByte, RequestKind.ofByte? (← itemAt payload 2) with
    | some scheme, some kind =>
      let p : Prelude := ⟨scheme, kind⟩
      if p.isConsistent then return p else failAt payload ⟨.invalidPrelude, 0, none⟩
    | _, _ => failAt payload ⟨.invalidPrelude, 0, none⟩

/-- The signer in front and the network at the end. -/
def readFraming (payload : Bytes) (scheme : Scheme) : Guarded DecodeFailure Framing := do
  let (_, w) ← (← Window.start payload).take Prelude.length
  let (key, w) ← w.take scheme.publicKeyLength
  match PublicKey.ofBytes? scheme key with
  | none => failAt payload ⟨.invalidPrelude, 1, none⟩
  | some signer =>
    if payload.length < hashLength ∨ payload.length - hashLength ≤ w.pos then
      failAt payload ⟨.unexpectedEnd, payload.length, none⟩
    else
      let stop ← minus payload.length hashLength
      let network ← copy hashLength (← slice payload stop payload.length)
      return ⟨signer, .fit 32 network, w.pos, stop⟩

/-- The scheme of the network is the scheme of the signer. -/
def checkScheme (payload : Bytes) (f : Framing) (e : Entry) : Guarded DecodeFailure Unit :=
  if e.specs.scheme = f.signer.scheme then .ok ()
  else failAt payload ⟨.encryptionMismatch e.specs.scheme f.signer.scheme, 1, none⟩

def authorCard (f : Framing) (e : Entry) : Guarded DecodeFailure Card := do
  return ⟨.author, ← showAddress e.specs.addressFormat f.signer.bytes, 0, ⟨0, f.bodyStart⟩, []⟩

/-! ### Transactions -/

def readEra (w : Window) : Guarded DecodeFailure (Era × Window) := do
  let (first, next) ← w.byte
  if first = 0 then return (.immortal, next)
  else
    let (second, next) ← next.byte
    let n := first + 256 * second
    let period ← shiftLeft 64 2 (n % 16)
    let phase := (← shiftRight 64 n 4) * max (← shiftRight 64 period 12) 1
    if period < 4 ∨ period ≤ phase then w.fail .invalidEra
    else return (.mortal period phase, next)

def locate {α : Type} (w : Window) (read : Window → Guarded DecodeFailure (α × Window)) :
    Guarded DecodeFailure (Located α × Window) := do
  let (x, next) ← read w
  return (⟨x, ⟨w.pos, next.pos⟩⟩, next)

def readExtensions (w : Window) : Guarded DecodeFailure Extensions := do
  let (era, w) ← locate w readEra
  let (nonce, w) ← locate w Window.integer
  let (tip, w) ← locate w Window.integer
  let (specVersion, w) ← locate w (·.number 4)
  let (txVersion, w) ← locate w (·.number 4)
  let (genesis, w) ← locate w (·.array hashLength)
  let (block, w) ← locate w (·.array hashLength)
  let remaining ← w.remaining
  if remaining = 0 then return ⟨era, nonce, tip, specVersion, txVersion, genesis, block⟩
  else w.fail (.trailingBytes remaining)

/-- The card of a call; what stands behind a method is not accepted. -/
def readCall (e : Entry) (l : Limits) (start : Nat) (w : Window) : Guarded DecodeFailure Card := do
  let (index, w) ← w.byte
  let head : Span := ⟨start, w.pos⟩
  match (e.pallet? (UInt8.ofNat index)).bind fun p => p.calls.map fun calls => (p, calls) with
  | some (pallet, calls) =>
    let (method, s) ← readValue e l l.maxDepth calls .call 1 ⟨w, false⟩
    let remaining ← s.window.remaining
    if remaining = 0 then return ⟨.pallet, pallet.name, 0, head, [method]⟩
    else s.window.fail (.trailingBytes remaining)
  | none =>
    let (b, next) ← w.takeAll
    let raw : Card := ⟨.raw, Hex.show0x b, 1, ⟨w.pos, next.pos⟩, []⟩
    let remaining ← next.remaining
    if remaining = 0 then
      return ⟨.pallet, "unknown pallet " ++ toString index, 0, head, [raw]⟩
    else next.fail (.trailingBytes remaining)

def readTransaction (payload : Bytes) (scheme : Scheme) (source : MetadataSource) (l : Limits) :
    Guarded DecodeFailure Review := do
  let f ← readFraming payload scheme
  let body ← Window.region payload f.bodyStart f.bodyStop
  let (callLength, w) ← body.count 1 0
  let callStop ← further w.pos callLength payload.length
  let x ← readExtensions (← Window.region payload callStop f.bodyStop)
  match source.entry f.network (UInt32.ofNat x.specVersion.value) with
  | .error e => failAt payload (f.refused x.specVersion.span.start e)
  | .ok e =>
    checkScheme payload f e
    if x.genesis.value ≠ f.network.bytes then
      failAt payload ⟨.genesisMismatch, x.genesis.span.start, none⟩
    else
      let author ← authorCard f e
      let call ← readCall e l body.pos (← Window.region payload w.pos callStop)
      let signed ← slice payload w.pos f.bodyStop
      return {
        cards := author :: call :: x.cards e.specs ++ [f.networkCard e payload.length]
        request := .sign ⟨f.signer, f.network, .transaction, signable signed⟩ }

def readMessage (payload : Bytes) (scheme : Scheme) (source : MetadataSource) :
    Guarded DecodeFailure Review := do
  let f ← readFraming payload scheme
  let body ← Window.region payload f.bodyStart f.bodyStop
  let (n, w) ← body.count 1 0
  let (m, w) ← w.take n
  let remaining ← w.remaining
  if remaining ≠ 0 then w.fail (.trailingBytes remaining)
  else
    match source.latest f.network with
    | .error e => failAt payload (f.refused f.bodyStop e)
    | .ok e =>
      checkScheme payload f e
      let author ← authorCard f e
      return {
        cards := [author, ⟨.message, messageText m, 0, ⟨body.pos, w.pos⟩, []⟩,
          f.networkCard e payload.length]
        request := .sign ⟨f.signer, f.network, .message, wrapMessage m⟩ }

/-! ### Updates -/

def readUpdate (payload : Bytes) : Guarded DecodeFailure Review := do
  let rest ← slice payload Prelude.length payload.length
  if rest.length < hashLength then failAt payload ⟨.unexpectedEnd, Prelude.length, none⟩
  else
    let network : NetworkId := .fit 32 (← copy hashLength (← slice rest 0 hashLength))
    let blobStart ← further Prelude.length hashLength payload.length
    match Blob.load network (← slice payload blobStart payload.length) with
    | .error (.violation v) => .error (.violation v)
    | .error (.failure f) => failAt payload (.ofRegistry blobStart (.malformed f.message))
    | .ok e =>
      let version := e.specs.name ++ " version " ++ toString e.specVersion.toNat
      return {
        cards := [⟨.network, network.text, 0, ⟨0, blobStart⟩, []⟩,
          ⟨.metadata, version, 0, ⟨blobStart, payload.length⟩, []⟩]
        request := .loadMetadata e }

/-! ### Requests of any kind -/

def decodeRequest (payload : Bytes) (source : MetadataSource) (l : Limits) :
    Guarded DecodeFailure Review := do
  let p ← readPrelude payload
  match p.kind with
  | .transaction => readTransaction payload p.scheme source l
  | .message => readMessage payload p.scheme source
  | .loadMetadata => readUpdate payload

/-! ### The same front -/

theorem follows_readPrelude (payload : Bytes) :
    FollowsIn payload Eq (readPrelude payload) (Review.readPrelude payload) := by
  rcases payload with _ | ⟨m, _ | ⟨s, _ | ⟨k, rest⟩⟩⟩
  · exact follows_failAt (Nat.zero_le _)
  · exact follows_failAt (Nat.zero_le _)
  · exact follows_failAt (Nat.zero_le _)
  · have hlong : Prelude.length ≤ (m :: s :: k :: rest).length := Nat.le_add_left ..
    have hslice : (slice (m :: s :: k :: rest) 1 (m :: s :: k :: rest).length :
        Guarded DecodeFailure Bytes) = .ok (s :: k :: rest) := by
      rw [slice_eq (Nat.le_trans (by decide) hlong) (Nat.le_refl _), List.take_length]
      rfl
    rw [readPrelude, if_neg (Nat.not_lt.2 hlong), itemAt_eq (Nat.zero_lt_succ _), ok_bind, hslice,
      ok_bind, itemAt_eq (Nat.zero_lt_succ _), ok_bind, itemAt_eq (Nat.lt_of_succ_le hlong), ok_bind,
      Review.readPrelude, Prelude.decode]
    dsimp only [List.getElem_cons_zero, List.getElem_cons_succ]
    by_cases hm : m ≠ Prelude.magic
    · rw [if_pos hm, if_pos hm]
      exact follows_failAt (Nat.zero_le _)
    · rw [if_neg hm, if_neg hm]
      cases Scheme.ofByte? s with
      | none => exact follows_failAt (Nat.zero_le _)
      | some scheme =>
        cases RequestKind.ofByte? k with
        | none => exact follows_failAt (Nat.zero_le _)
        | some kind =>
          dsimp only
          by_cases hc : Prelude.isConsistent ⟨scheme, kind⟩ = true
          · rw [if_pos hc, if_pos hc]
            exact .ok rfl
          · rw [if_neg hc, if_neg hc]
            exact follows_failAt (Nat.zero_le _)

/-- What is framed lies inside of the payload. -/
theorem framed_inside {payload : Bytes} {scheme : Scheme} {f : Framing}
    (h : Framing.read payload scheme = .ok f) :
    1 ≤ f.bodyStart ∧ f.bodyStart ≤ f.bodyStop ∧ f.bodyStop ≤ payload.length := by
  obtain ⟨-, front, body, hfront, -, hpayload, hstart, hstop⟩ := Framing.read_eq_ok.1 h
  have hlength : Prelude.length = 3 := rfl
  rw [hpayload, hstart, hstop]
  simp only [List.length_append]
  omega

theorem follows_readFraming (payload : Bytes) (scheme : Scheme) :
    FollowsIn payload Eq (readFraming payload scheme) (Framing.read payload scheme) := by
  obtain ⟨w, hstart, h⟩ := @Window.exists_start DecodeFailure payload
  rw [readFraming, hstart, ok_bind]
  refine follows_bind (Window.follows_take h Prelude.length) fun front w c h taken => ?_
  obtain ⟨hfront, hc⟩ := Cursor.take_eq_ok.1 taken
  refine follows_bind (Window.follows_take h scheme.publicKeyLength) fun key w d h taken => ?_
  obtain ⟨-, hd⟩ := Cursor.take_eq_ok.1 taken
  have hinside : Prelude.length ≤ payload.length := by
    have hle := Nat.le_trans hd.offset_le h.offset_le
    rwa [hc.offset, hfront, show (Cursor.start payload).offset = 0 from rfl, Nat.zero_add] at hle
  dsimp only
  cases PublicKey.ofBytes? scheme key with
  | none => exact follows_failAt (Nat.le_trans (by decide) hinside)
  | some signer =>
    dsimp only
    have hshort : payload.length < hashLength ∨ payload.length - hashLength ≤ w.pos ↔
        payload.length ≤ d.offset + hashLength := by
      rw [h.pos]
      omega
    by_cases hlong : payload.length ≤ d.offset + hashLength
    · rw [if_pos (hshort.2 hlong), if_pos hlong]
      exact follows_failAt (Nat.le_refl _)
    · have hhash : hashLength ≤ payload.length := by omega
      have hlast : (payload.drop (payload.length - hashLength)).length = hashLength := by
        rw [List.length_drop]
        omega
      rw [if_neg (mt hshort.1 hlong), if_neg hlong, minus_eq hhash, ok_bind,
        slice_eq (Nat.sub_le ..) (Nat.le_refl _), ok_bind, List.take_length, copy_eq hlast, ok_bind,
        h.pos]
      exact .ok rfl

theorem follows_checkScheme {payload : Bytes} {f : Framing} (e : Entry) (h : 1 ≤ payload.length) :
    FollowsIn payload Eq (checkScheme payload f e) (f.checkScheme e) := by
  rw [checkScheme, Framing.checkScheme]
  split
  · exact .ok rfl
  · exact follows_failAt h

/-- Where a lookup fails, this is noticed at the network or at the version. -/
theorem refused_inside {payload : Bytes} {f : Framing} {offset : Nat}
    (hstop : f.bodyStop ≤ payload.length) (hoffset : offset ≤ payload.length) (e : RegistryError) :
    (f.refused offset e).offset ≤ payload.length := by
  cases e with
  | unknownNetwork => exact hstop
  | _ => exact hoffset

theorem authorCard_eq (f : Framing) (e : Entry) : authorCard f e = .ok (f.authorCard e) := by
  rw [authorCard, showAddress_eq]
  rfl

/-! ### The same transactions -/

variable {payload : Bytes} {w : Window} {c : Cursor}

theorem follows_readEra (h : Shows payload w c) :
    FollowsIn payload (SameRead payload) (readEra w) (Review.readEra c) := by
  refine follows_bind (Window.follows_byte h) fun first w' c' hfirst _ => ?_
  dsimp only
  by_cases hzero : first = 0
  · rw [if_pos hzero, if_pos hzero]
    exact .ok ⟨rfl, hfirst⟩
  rw [if_neg hzero, if_neg hzero]
  refine follows_bind (Window.follows_byte hfirst) fun second w' c' hsecond _ => ?_
  have hfits (n : Nat) : 2 <<< (n % 16) < 1 <<< 64 := by
    rw [two_shiftLeft, Nat.one_shiftLeft]
    exact Nat.pow_lt_pow_right (by decide) (by omega)
  have hwide (n : Nat) : n % 16 < 64 := by omega
  dsimp only
  rw [shiftLeft_eq (hwide _) (hfits _), ok_bind, shiftRight_eq (by decide), ok_bind,
    shiftRight_eq (by decide), ok_bind, Nat.shiftRight_eq_div_pow, Nat.shiftRight_eq_div_pow,
    Era.ofNumber?]
  split
  · exact Window.follows_fail h
  · exact .ok ⟨rfl, hsecond⟩

theorem follows_locate {α : Type} {read : Window → Guarded DecodeFailure (α × Window)}
    {read' : Cursor → Except DecodeFailure (α × Cursor)} (h : Shows payload w c)
    (hread : FollowsIn payload (SameRead payload) (read w) (read' c)) :
    FollowsIn payload (SameRead payload) (locate w read) (Review.locate c read') := by
  refine follows_bind hread fun x w' d shows _ => ?_
  refine .ok ⟨?_, shows⟩
  rw [h.pos, shows.pos]

/-- What was located starts inside of the payload. -/
theorem start_le_of_locate {α : Type} {read : Cursor → Except DecodeFailure (α × Cursor)} {d : Cursor}
    {x : Located α} (h : Shows payload w c) (located : Review.locate c read = .ok (x, d)) :
    x.span.start ≤ payload.length := by
  rw [(locate_eq_ok.1 located).2]
  exact h.offset_le

theorem follows_readExtensions (h : Shows payload w c) :
    FollowsIn payload (fun x y => x = y ∧ y.specVersion.span.start ≤ payload.length ∧
      y.genesis.span.start ≤ payload.length) (readExtensions w) (Extensions.read c) := by
  refine follows_bind (follows_locate h (follows_readEra h)) fun era w c h _ => ?_
  refine follows_bind (follows_locate h (Window.follows_integer h)) fun nonce w c h _ => ?_
  refine follows_bind (follows_locate h (Window.follows_integer h)) fun tip w c hspec _ => ?_
  refine follows_bind (follows_locate hspec (Window.follows_number hspec 4))
    fun specVersion w c h located => ?_
  have hspec := start_le_of_locate hspec located
  refine follows_bind (follows_locate h (Window.follows_number h 4)) fun txVersion w c hgenesis _ => ?_
  refine follows_bind (follows_locate hgenesis (Window.follows_array hgenesis hashLength))
    fun genesis w c h located => ?_
  have hgenesis := start_le_of_locate hgenesis located
  refine follows_bind (follows_locate h (Window.follows_array h hashLength)) fun block w c h _ => ?_
  dsimp only
  rw [Window.remaining_eq h, ok_bind]
  split
  · exact .ok ⟨rfl, hspec, hgenesis⟩
  · exact Window.follows_fail h

theorem follows_readCall (e : Entry) (l : Limits) {start start' : Nat} (h : Shows payload w c)
    (hstart : start = start') :
    FollowsIn payload Eq (readCall e l start w) (Review.readCall e l start' c) := by
  refine follows_bind (Window.follows_byte h) fun index w c h _ => ?_
  dsimp only
  cases (e.pallet? (UInt8.ofNat index)).bind fun p => p.calls.map fun calls => (p, calls) with
  | some found =>
    obtain ⟨pallet, calls⟩ := found
    refine card_bind (safe_readValue l.maxDepth calls .call 1 ⟨w, false⟩ ⟨c, false⟩ ⟨h, rfl⟩)
      fun method s p hs => ?_
    dsimp only
    rw [Window.remaining_eq hs.shows, ok_bind]
    split
    · exact .ok (by rw [hstart, h.pos])
    · exact Window.follows_fail hs.shows
  | none =>
    obtain ⟨w', htake, h'⟩ := @Window.exists_takeAll DecodeFailure payload w c h
    have hend : c.takeAll.2.remaining = 0 := by
      rw [Cursor.remaining, c.offset_takeAll]
      exact Nat.sub_self _
    dsimp only
    rw [htake, ok_bind]
    dsimp only
    rw [Window.remaining_eq h', ok_bind, if_pos hend, hstart, h.pos, h'.pos]
    exact .ok rfl

theorem follows_readTransaction (payload : Bytes) (scheme : Scheme) (source : MetadataSource)
    (l : Limits) :
    FollowsIn payload Eq (readTransaction payload scheme source l)
      (Review.readTransaction payload scheme source l) := by
  refine (follows_readFraming payload scheme).bind fun f f' same framed => ?_
  obtain rfl := same
  obtain ⟨hone, hle, hstop⟩ := framed_inside framed
  obtain ⟨body, hregion, hbody⟩ := @Window.exists_region DecodeFailure payload f.bodyStart f.bodyStop
  dsimp only
  rw [hregion, ok_bind]
  refine follows_bind (Window.follows_count hbody 1 0) fun callLength w c h counted => ?_
  obtain ⟨-, hconsumed, hfits⟩ := Cursor.count_eq_ok.1 counted
  have hend : c.stop ≤ f.bodyStop := by
    rw [hconsumed.stop_eq]
    exact Nat.min_le_left ..
  have hcall : w.pos + callLength ≤ payload.length := by
    have hbounded := c.bounded
    have hinside := h.inside
    rw [if_neg Nat.one_ne_zero, c.remaining_eq] at hfits
    rw [h.pos]
    omega
  obtain ⟨behind, hregion, hbehind⟩ :=
    @Window.exists_region DecodeFailure payload (c.offset + callLength) f.bodyStop
  dsimp only
  rw [further_eq hcall, ok_bind, h.pos, hregion, ok_bind]
  refine (follows_readExtensions hbehind).bind fun x x' same _ => ?_
  obtain ⟨rfl, hspec, hgenesis⟩ := same
  cases source.entry f.network (UInt32.ofNat x.specVersion.value) with
  | error e => exact follows_failAt (refused_inside hstop hspec e)
  | ok e =>
    refine (follows_checkScheme e (by omega)).bind fun _ _ _ _ => ?_
    split
    · exact follows_failAt hgenesis
    · obtain ⟨front, hregion, hfront⟩ :=
        @Window.exists_region DecodeFailure payload c.offset (c.offset + callLength)
      rw [authorCard_eq, ok_bind, hregion, ok_bind]
      refine (follows_readCall e l hfront hbody.pos).bind fun call call' same _ => ?_
      obtain rfl := same
      rw [slice_eq (by have := c.bounded; omega) hstop, ok_bind]
      exact .ok rfl

/-! ### The same messages -/

theorem follows_readMessage (payload : Bytes) (scheme : Scheme) (source : MetadataSource) :
    FollowsIn payload Eq (readMessage payload scheme source)
      (Review.readMessage payload scheme source) := by
  refine (follows_readFraming payload scheme).bind fun f f' same framed => ?_
  obtain rfl := same
  obtain ⟨hone, hle, hstop⟩ := framed_inside framed
  obtain ⟨body, hregion, hbody⟩ := @Window.exists_region DecodeFailure payload f.bodyStart f.bodyStop
  dsimp only
  rw [hregion, ok_bind]
  refine follows_bind (Window.follows_count hbody 1 0) fun n w c h _ => ?_
  refine follows_bind (Window.follows_take h n) fun m w c h _ => ?_
  dsimp only
  rw [Window.remaining_eq h, ok_bind]
  split
  · exact Window.follows_fail h
  · cases source.latest f.network with
    | error e => exact follows_failAt (refused_inside hstop hstop e)
    | ok e =>
      refine (follows_checkScheme e (by omega)).bind fun _ _ _ _ => ?_
      rw [authorCard_eq, ok_bind, hbody.pos, h.pos]
      exact .ok rfl

/-! ### The same updates -/

theorem follows_readUpdate (hpayload : Prelude.length ≤ payload.length) :
    FollowsIn payload Eq (readUpdate payload) (Review.readUpdate payload) := by
  have hlength : (payload.drop Prelude.length).length = payload.length - Prelude.length :=
    List.length_drop ..
  rw [readUpdate, Review.readUpdate, slice_eq hpayload (Nat.le_refl _), ok_bind, List.take_length]
  by_cases hshort : payload.length < Prelude.length + hashLength
  · rw [if_pos hshort, if_pos (by omega)]
    exact follows_failAt hpayload
  · have hblob : Prelude.length + hashLength ≤ payload.length := Nat.le_of_not_lt hshort
    have hnetwork : ((payload.drop Prelude.length).take hashLength).length = hashLength := by
      rw [List.length_take, hlength]
      omega
    have hfit : FixedBytes.fit 32 ((payload.drop Prelude.length).take hashLength) =
        FixedBytes.fit 32 (payload.drop Prelude.length) := by
      refine FixedBytes.ext ?_
      show List.take hashLength _ = List.take hashLength _
      rw [List.take_append_of_le_length (by omega), List.take_append_of_le_length (by omega),
        List.take_take, Nat.min_self]
    rw [if_neg hshort, if_neg (by omega), slice_eq (Nat.zero_le _) (by omega), ok_bind, List.drop_zero,
      copy_eq hnetwork, ok_bind, hfit, further_eq hblob, ok_bind, slice_eq hblob (Nat.le_refl _),
      ok_bind, List.take_length]
    dsimp only
    have hload := Blob.follows_load (.fit 32 (payload.drop Prelude.length))
      (payload.drop (Prelude.length + hashLength))
    rw [hload.eq_mapError]
    generalize Entry.load _ _ = loaded
    cases loaded with
    | error m => exact follows_failAt hblob
    | ok e => exact .ok rfl

/-! ### The same requests -/

theorem follows_decodeRequest (payload : Bytes) (source : MetadataSource) (l : Limits) :
    FollowsIn payload Eq (decodeRequest payload source l) (Review.decodeRequest payload source l) := by
  refine (follows_readPrelude payload).bind fun p p' same read => ?_
  obtain rfl := same
  cases hkind : p.kind with
  | transaction => exact follows_readTransaction ..
  | message => exact follows_readMessage ..
  | loadMetadata =>
    obtain ⟨-, rest, hpayload⟩ := readPrelude_eq_ok.1 read
    refine follows_readUpdate ?_
    rw [hpayload, List.length_append]
    exact Nat.le_add_right ..

/-- Whatever the payload, the metadata and the limits, a request is decoded without a violation, and
so is a value of any type: with every access checked, decoding comes to the same review or
the same failure. What fails is noticed inside of the payload or at its end. -/
theorem decoding_stays_inside (payload : Bytes) (source : MetadataSource) (e : Entry) (id : TypeId)
    (l : Limits) :
    decodeRequest payload source l = (Review.decodeRequest payload source l).mapError .failure ∧
      decodeValue e l payload id = (Review.decodeValue e l payload id).mapError .failure ∧
        (∀ f, Review.decodeRequest payload source l = .error f → f.offset ≤ payload.length) ∧
          ∀ f, Review.decodeValue e l payload id = .error f → f.offset ≤ payload.length := by
  have hrequest := follows_decodeRequest payload source l
  have hvalue := follows_decodeValue e l payload id
  exact ⟨hrequest.eq_mapError, hvalue.eq_mapError, fun _ h => hrequest.of_error h,
    fun _ h => hvalue.of_error h⟩

/-- A transaction that claims the largest length of a call, with nothing behind it but the
network. -/
def boundlessCall : Bytes :=
  [0x53, 0, 2] ++ List.replicate 32 1 ++ 0x33 :: List.replicate 16 0xff ++ List.replicate 32 7

set_option maxRecDepth 4096 in
theorem boundlessCall_stays_inside :
    decodeRequest boundlessCall sampleRegistry.source {} =
        fail ⟨.lengthOverrun 340282366920938463463374607431768211455 0, 35, none⟩ ∧
      decodeValue sampleEntry {} boundlessCall 0 = fail ⟨.trailingBytes 83, 1, none⟩ ∧
        35 ≤ boundlessCall.length ∧ 1 ≤ boundlessCall.length := by
  have hrequest : Review.decodeRequest boundlessCall sampleRegistry.source {} =
      .error ⟨.lengthOverrun 340282366920938463463374607431768211455 0, 35, none⟩ := by
    rfl
  have hvalue : Review.decodeValue sampleEntry {} boundlessCall 0 =
      .error ⟨.trailingBytes 83, 1, none⟩ := by
    rfl
  obtain ⟨request, value, requestInside, valueInside⟩ :=
    decoding_stays_inside boundlessCall sampleRegistry.source sampleEntry 0 {}
  rw [hrequest] at request
  rw [hvalue] at value
  exact ⟨request, value, requestInside _ hrequest, valueInside _ hvalue⟩

end ColdSigner.Checked
