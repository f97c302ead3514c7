import CanTransport.Proofs.Frame.Candump
import CanTransport.Proofs.Text.Numerals
/-!
# The notation of frames

Which texts are read as frames, and as which. In front of the first `#` stands the identifier,
whose length in bytes decides about the format and so about the range; behind it stands a request
or data. The reader takes these texts and no others, and it makes a frame that says nothing beside
them.
-/

namespace CanTransport.Frame

open Text (IsDigit Numeral byteSize Boundary)

/-! ## Grammar -/

/-- An identifier in front of the `#`. More than three bytes mean extended format, whatever the
number is. -/
structure Identifier (part : List Char) (isExtended : Bool) (id : Nat) : Prop where
  numeral : Numeral 16 part id
  format_iff : isExtended = true ↔ 3 < byteSize part
  le : id ≤ (idLimit isExtended).toNat

/-- A byte of data: two digits, or one behind a plus sign. -/
inductive Octet : Char → Char → UInt8 → Prop where
  | digits {a b : Char} {high low : Nat} (ha : IsDigit 16 a high) (hb : IsDigit 16 b low) :
      Octet a b (UInt8.ofNat (16 * high + low))
  | signed {b : Char} {low : Nat} (hb : IsDigit 16 b low) : Octet '+' b (UInt8.ofNat low)

inductive Octets : List Char → List UInt8 → Prop where
  | nil : Octets [] []
  | cons {a b : Char} {byte : UInt8} {cs : List Char} {bytes : List UInt8}
      (hbyte : Octet a b byte) (hrest : Octets cs bytes) : Octets (a :: b :: cs) (byte :: bytes)

/-- What stands behind the `#`: a request with its length, or data between whose characters dots
may stand. -/
inductive Payload : List Char → Bool → Nat → List UInt8 → Prop where
  | request : Payload ['R'] true 0 []
  | requestOf {part : List Char} {dlc : Nat} (hpart : Numeral 10 part dlc) (hdlc : dlc ≤ 8) :
      Payload ('R' :: part) true dlc []
  | data {part : List Char} {data : List UInt8} (hpart : Octets (part.filter (· ≠ '.')) data)
      (hdata : data.length ≤ 8) : Payload part false data.length data

/-- A frame with an identifier in its format, with a length and data, and with nothing else. -/
structure Tells (f : Frame) (id : UInt32) (isExtended isRemote : Bool) (dlc : Nat)
    (data : List UInt8) : Prop where
  rawId_eq : f.rawId = formatWord id isExtended isRemote
  flags_eq : f.flags = 0
  dlc_eq : f.dlc = dlc
  rawData_eq : f.rawData = padded data

/-- A text and the frame that it stands for. -/
inductive Notates : List Char → Frame → Prop where
  | mk {part payload : List Char} {isExtended isRemote : Bool} {id dlc : Nat}
      {data : List UInt8} {f : Frame} (hhash : '#' ∉ part) (hid : Identifier part isExtended id)
      (hpayload : Payload payload isRemote dlc data)
      (htells : f.Tells (UInt32.ofNat id) isExtended isRemote dlc data) :
      Notates (part ++ '#' :: payload) f

/-! ## Pairs of characters -/

variable {cs part payload : List Char} {bytes : List UInt8} {a b : Char} {n : Nat}

/-- Two characters are a number of two digits, or of one behind a plus sign. -/
theorem numeral_pair_iff : Numeral 16 [a, b] n ↔
    (∃ high low, IsDigit 16 a high ∧ IsDigit 16 b low ∧ n = 16 * high + low) ∨
      (a = '+' ∧ IsDigit 16 b n) := by
  constructor
  · intro h
    cases h with
    | plain h => exact Or.inl (Text.digits_pair_iff.mp h)
    | signed h => exact Or.inr ⟨rfl, Text.digits_singleton_iff.mp h⟩
  · rintro (h | ⟨rfl, h⟩)
    · exact .plain (Text.digits_pair_iff.mpr h)
    · exact .signed (Text.digits_singleton_iff.mpr h)

theorem readUnsigned?_pair_iff {byte : UInt8} :
    (∃ n, Text.readUnsigned? 16 255 [a, b] = some n ∧ UInt8.ofNat n = byte) ↔ Octet a b byte := by
  simp only [Text.readUnsigned?_eq_some_iff (Nat.le_refl 16), numeral_pair_iff]
  constructor
  · rintro ⟨n, ⟨⟨high, low, ha, hb, rfl⟩ | ⟨rfl, hb⟩, -⟩, rfl⟩
    · exact .digits ha hb
    · exact .signed hb
  · intro h
    cases h with
    | @digits _ _ high low ha hb =>
      have hhigh := ha.1
      have hlow := hb.1
      exact ⟨_, ⟨Or.inl ⟨high, low, ha, hb, rfl⟩, by omega⟩, rfl⟩
    | @signed _ low hb =>
      have hlow := hb.1
      exact ⟨low, ⟨Or.inr ⟨rfl, hb⟩, by omega⟩, rfl⟩

theorem pairs?_eq_some_iff : pairs? cs = some bytes ↔ Octets cs bytes := by
  induction cs using pairs?.induct generalizing bytes with
  | case1 =>
    rw [pairs?, Option.some_inj]
    constructor
    · rintro rfl
      exact .nil
    · intro h
      cases h
      rfl
  | case2 c =>
    constructor
    · intro h
      cases h
    · intro h
      cases h
  | case3 a b rest ih =>
    simp only [pairs?, Option.bind_eq_bind, Option.pure_def, Option.bind_eq_some_iff,
      Option.some_inj, ih]
    constructor
    · rintro ⟨n, hread, bytes', hrest, rfl⟩
      exact .cons (readUnsigned?_pair_iff.mp ⟨n, hread, rfl⟩) hrest
    · intro h
      cases h with
      | cons hbyte hrest =>
        obtain ⟨n, hread, rfl⟩ := readUnsigned?_pair_iff.mpr hbyte
        exact ⟨n, hread, _, hrest, rfl⟩

theorem Octets.length_eq (h : Octets cs bytes) : cs.length = 2 * bytes.length := by
  induction h with
  | nil => rfl
  | cons _ _ ih =>
    rw [List.length_cons, List.length_cons, List.length_cons, ih]
    omega

theorem Octets.ascii (h : Octets cs bytes) : ∀ c ∈ cs, c.toNat < 128 := by
  induction h with
  | nil => exact List.forall_mem_nil _
  | cons hbyte _ ih =>
    cases hbyte with
    | digits ha hb =>
      exact List.forall_mem_cons.mpr ⟨(ha.plain (by decide)).2,
        List.forall_mem_cons.mpr ⟨(hb.plain (by decide)).2, ih⟩⟩
    | signed hb =>
      exact List.forall_mem_cons.mpr ⟨by decide,
        List.forall_mem_cons.mpr ⟨(hb.plain (by decide)).2, ih⟩⟩

/-! ## Parts -/

/-- The first `#` separates. -/
theorem splitAtHash?_eq_some_iff :
    splitAtHash? cs = some (part, payload) ↔ cs = part ++ '#' :: payload ∧ '#' ∉ part := by
  constructor
  · intro h
    induction cs using splitAtHash?.induct generalizing part with
    | case1 => cases h
    | case2 rest =>
      cases h
      exact ⟨rfl, List.not_mem_nil⟩
    | case3 c rest hne ih =>
      rw [splitAtHash?] at h
      · obtain ⟨⟨before, behind⟩, hrest, hsame⟩ := Option.map_eq_some_iff.mp h
        cases hsame
        obtain ⟨rfl, hhash⟩ := ih hrest
        refine ⟨rfl, ?_⟩
        rw [List.mem_cons, not_or]
        exact ⟨fun heq => hne heq.symm, hhash⟩
      · exact hne
  · rintro ⟨rfl, hhash⟩
    exact splitAtHash?_append hhash

theorem remoteLength?_iff {dlc : Nat} : remoteLength? part = some dlc ∧ dlc ≤ 8 ↔
    part = [] ∧ dlc = 0 ∨ Numeral 10 part dlc ∧ dlc ≤ 8 := by
  rw [remoteLength?]
  split
  · rename_i hnil
    rw [hnil, Option.some_inj]
    constructor
    · rintro ⟨rfl, -⟩
      exact Or.inl ⟨rfl, rfl⟩
    · rintro (⟨-, rfl⟩ | ⟨hnumeral, -⟩)
      · exact ⟨rfl, Nat.zero_le 8⟩
      · cases hnumeral with
        | plain hdigits => exact absurd rfl hdigits.1
  · rename_i hne
    rw [Text.readUnsigned?_eq_some_iff (by decide)]
    constructor
    · rintro ⟨⟨hnumeral, -⟩, hdlc⟩
      exact Or.inr ⟨hnumeral, hdlc⟩
    · rintro (⟨hnil, -⟩ | ⟨hnumeral, hdlc⟩)
      · exact absurd hnil hne
      · exact ⟨⟨hnumeral, by omega⟩, hdlc⟩

section Parts

variable {id : UInt32} {isExtended : Bool} {f : Frame}

theorem Tells.ok_iff {isRemote : Bool} {dlc : Nat} {data : List UInt8} {hdlc : dlc ≤ 8} :
    Except.ok ⟨formatWord id isExtended isRemote, 0, dlc, padded data, hdlc⟩ =
      (Except.ok f : Except TextFault Frame) ↔ f.Tells id isExtended isRemote dlc data := by
  rw [Except.ok.injEq]
  constructor
  · rintro rfl
    exact ⟨rfl, rfl, rfl, rfl⟩
  · intro h
    exact eq_of_fields h.rawId_eq.symm h.flags_eq.symm h.dlc_eq.symm h.rawData_eq.symm

/-- Nothing is read behind an extended identifier that is out of range. -/
theorem le_of_ofParts (h : ofParts id true payload = .ok f) : id ≤ extendedMask := by
  by_contra hid
  have hfault : ∀ data, extended id data = .error (.extendedRange id) := by
    intro data
    rw [extended, if_pos (UInt32.not_le.mp hid)]
  simp only [ofParts, if_true, hfault] at h
  split at h
  · split at h <;> cases h
  · split at h
    · cases h
    · split at h <;> cases h

theorem ofParts_request_of_le {dlc : Nat} (hid : id ≤ idLimit isExtended)
    (hlength : remoteLength? part = some dlc) (hdlc : dlc ≤ 8) :
    ofParts id isExtended ('R' :: part) =
      .ok ⟨formatWord id isExtended true, 0, dlc, padded [], hdlc⟩ := by
  simp only [ofParts, hlength]
  cases isExtended with
  | true =>
    have hbase := extended_of_le hid (show ([] : List UInt8).length ≤ 8 by decide)
    simp only [if_true, hbase, Except.bind, ofFields, dif_pos hdlc, formatWord_remote]
    rfl
  | false =>
    simp only [Bool.false_eq_true, if_false, remote_of_le hid hdlc]
    rfl

/-- A request for more than eight bytes is no frame. -/
theorem le_of_ofParts_request {dlc : Nat} (hid : id ≤ idLimit isExtended)
    (hlength : remoteLength? part = some dlc)
    (h : ofParts id isExtended ('R' :: part) = .ok f) : dlc ≤ 8 := by
  by_contra hdlc
  simp only [ofParts, hlength] at h
  cases isExtended with
  | true =>
    have hbase := extended_of_le hid (show ([] : List UInt8).length ≤ 8 by decide)
    simp only [if_true, hbase, Except.bind, ofFields, dif_neg hdlc] at h
    cases h
  | false =>
    simp only [Bool.false_eq_true, if_false, remote, dif_neg hdlc] at h
    cases h

theorem ofParts_request_iff (hid : id ≤ idLimit isExtended) :
    ofParts id isExtended ('R' :: part) = .ok f ↔
      ∃ dlc, remoteLength? part = some dlc ∧ dlc ≤ 8 ∧ f.Tells id isExtended true dlc [] := by
  constructor
  · intro h
    cases hlength : remoteLength? part with
    | none =>
      simp only [ofParts, hlength] at h
      cases h
    | some dlc =>
      have hdlc := le_of_ofParts_request hid hlength h
      rw [ofParts_request_of_le hid hlength hdlc] at h
      exact ⟨dlc, rfl, hdlc, Tells.ok_iff.mp h⟩
  · rintro ⟨dlc, hlength, hdlc, htells⟩
    rw [ofParts_request_of_le hid hlength hdlc]
    exact Tells.ok_iff.mpr htells

/-- Pairs pass the check that comes in front of them. -/
theorem ofParts_octets {data : List UInt8} (hhead : payload.head? ≠ some 'R')
    (hoctets : Octets (payload.filter (· ≠ '.')) data) : ofParts id isExtended payload =
      (if isExtended then extended id data else new id data).mapError .parts := by
  have hascii : (payload.filter (· ≠ '.')).any (fun c => 128 ≤ c.toNat) = false := by
    rw [List.any_eq_false]
    intro c hc
    simpa using hoctets.ascii c hc
  have heven : (payload.filter (· ≠ '.')).length % 2 = 0 := by
    rw [hoctets.length_eq]
    exact Nat.mul_mod_right 2 _
  rw [ofParts_data hhead]
  simp only [hascii, heven, pairs?_eq_some_iff.mpr hoctets]
  rfl

/-- A frame is made of pairs if there are not too many of them. -/
theorem make_eq_ok_iff {data : List UInt8} (hid : id ≤ idLimit isExtended) :
    (if isExtended then extended id data else new id data).mapError TextFault.parts = .ok f ↔
      data.length ≤ 8 ∧ f.Tells id isExtended false data.length data := by
  by_cases hdata : data.length ≤ 8
  · rw [and_iff_right hdata]
    cases isExtended with
    | true =>
      rw [if_pos rfl, extended_of_le hid hdata]
      exact Tells.ok_iff
    | false =>
      rw [if_neg Bool.false_ne_true, new_of_le hid hdata]
      exact Tells.ok_iff
  · refine iff_of_false (fun h => ?_) fun h => hdata h.1
    have hmade := eq_ok_of_mapError h
    split at hmade
    · exact hdata (extended_eq_ok hmade).1
    · obtain ⟨-, hle, -⟩ := new_eq_ok hmade
      exact hdata hle

theorem ofParts_data_iff (hid : id ≤ idLimit isExtended) (hhead : payload.head? ≠ some 'R') :
    ofParts id isExtended payload = .ok f ↔
      ∃ data, Octets (payload.filter (· ≠ '.')) data ∧ data.length ≤ 8 ∧
        f.Tells id isExtended false data.length data := by
  constructor
  · intro h
    obtain ⟨data, hpairs⟩ : ∃ data, pairs? (payload.filter (· ≠ '.')) = some data := by
      rw [ofParts_data hhead] at h
      simp only at h
      split at h
      · cases h
      · split at h
        · cases h
        · rename_i data hpairs
          exact ⟨data, hpairs⟩
    have hoctets := pairs?_eq_some_iff.mp hpairs
    rw [ofParts_octets hhead hoctets, make_eq_ok_iff hid] at h
    exact ⟨data, hoctets, h⟩
  · rintro ⟨data, hoctets, h⟩
    rw [ofParts_octets hhead hoctets, make_eq_ok_iff hid]
    exact h

/-- Neither a digit nor a sign is an `R`. -/
theorem Octets.head?_ne {data : List UInt8} (h : Octets (payload.filter (· ≠ '.')) data) :
    payload.head? ≠ some 'R' := by
  intro hhead
  obtain ⟨rest, rfl⟩ := List.head?_eq_some_iff.mp hhead
  rw [List.filter_cons_of_pos (by decide)] at h
  generalize rest.filter (· ≠ '.') = others at h
  cases h with
  | cons hbyte =>
    cases hbyte with
    | digits ha =>
      have hnone : Text.digitValue? 16 'R' = none := by decide
      cases hnone.symm.trans ((Text.digitValue?_eq_some_iff (Nat.le_refl 16)).mpr ha)

theorem ofParts_eq_ok_iff (hid : id ≤ idLimit isExtended) :
    ofParts id isExtended payload = .ok f ↔ ∃ isRemote dlc data,
      Payload payload isRemote dlc data ∧ f.Tells id isExtended isRemote dlc data := by
  by_cases hhead : payload.head? = some 'R'
  · obtain ⟨part, rfl⟩ := List.head?_eq_some_iff.mp hhead
    rw [ofParts_request_iff hid]
    constructor
    · rintro ⟨dlc, hlength, hdlc, htells⟩
      refine ⟨true, dlc, [], ?_, htells⟩
      rcases remoteLength?_iff.mp ⟨hlength, hdlc⟩ with ⟨rfl, rfl⟩ | ⟨hnumeral, -⟩
      · exact .request
      · exact .requestOf hnumeral hdlc
    · rintro ⟨isRemote, dlc, data, hpayload, htells⟩
      cases hpayload with
      | request =>
        obtain ⟨hlength, hdlc⟩ := remoteLength?_iff.mpr (Or.inl ⟨rfl, rfl⟩)
        exact ⟨0, hlength, hdlc, htells⟩
      | requestOf hnumeral hdlc =>
        obtain ⟨hlength, -⟩ := remoteLength?_iff.mpr (Or.inr ⟨hnumeral, hdlc⟩)
        exact ⟨dlc, hlength, hdlc, htells⟩
      | data hoctets => exact absurd hhead hoctets.head?_ne
  · rw [ofParts_data_iff hid hhead]
    constructor
    · rintro ⟨data, hoctets, hdata, htells⟩
      exact ⟨false, data.length, data, .data hoctets hdata, htells⟩
    · rintro ⟨isRemote, dlc, data, hpayload, htells⟩
      cases hpayload with
      | request | requestOf => exact absurd rfl hhead
      | data hoctets hdata => exact ⟨data, hoctets, hdata, htells⟩

end Parts

/-! ## Texts -/

theorem toNat_idLimit_le (isExtended : Bool) : (idLimit isExtended).toNat ≤ 0x1FFFFFFF := by
  cases isExtended <;> decide

/-- What is read in front of the `#`: a word, the format by the number of characters, and a
range. -/
theorem identifier_iff {isExtended : Bool} : Identifier part isExtended n ↔
    Text.readUnsigned? 16 0xFFFFFFFF part = some n ∧ isExtended = decide (part.length > 3) ∧
      UInt32.ofNat n ≤ idLimit isExtended := by
  have hformat : ∀ {k}, Numeral 16 part k →
      ((isExtended = true ↔ 3 < byteSize part) ↔ isExtended = decide (part.length > 3)) := by
    intro k hnumeral
    have hsame := @Bool.eq_iff_iff isExtended (decide (part.length > 3))
    rw [decide_eq_true_eq] at hsame
    rw [Text.byteSize_eq_length (hnumeral.ascii (Nat.le_refl 16))]
    exact hsame.symm
  have hword : n ≤ 0xFFFFFFFF → (UInt32.ofNat n ≤ idLimit isExtended ↔
      n ≤ (idLimit isExtended).toNat) := by
    intro hle
    rw [UInt32.le_iff_toNat_le, UInt32.toNat_ofNat_of_lt' (Nat.lt_succ_of_le hle)]
  have hlimit := toNat_idLimit_le isExtended
  rw [Text.readUnsigned?_eq_some_iff (Nat.le_refl 16)]
  constructor
  · rintro ⟨hnumeral, hextended, hle⟩
    have hsmall : n ≤ 0xFFFFFFFF := by omega
    exact ⟨⟨hnumeral, hsmall⟩, (hformat hnumeral).mp hextended, (hword hsmall).mpr hle⟩
  · rintro ⟨⟨hnumeral, hsmall⟩, hextended, hle⟩
    exact ⟨hnumeral, (hformat hnumeral).mpr hextended, (hword hsmall).mp hle⟩

/-- Behind an identifier of three characters or fewer the range is looked at first. -/
theorem ofChars_eq (hsplit : splitAtHash? cs = some (part, payload))
    (hread : Text.readUnsigned? 16 0xFFFFFFFF part = some n) : ofChars cs =
      if !decide (part.length > 3) && decide (n > 0x7FF) then .error (.standardRange part)
      else ofParts (UInt32.ofNat n) (decide (part.length > 3)) payload := by
  rw [ofChars, hsplit]
  simp only [hread]

theorem ofChars_eq_ok_iff {f : Frame} : ofChars cs = .ok f ↔ Notates cs f := by
  constructor
  · intro h
    cases hsplit : splitAtHash? cs with
    | none =>
      rw [ofChars, hsplit] at h
      cases h
    | some parts =>
      obtain ⟨part, payload⟩ := parts
      cases hread : Text.readUnsigned? 16 0xFFFFFFFF part with
      | none =>
        rw [ofChars, hsplit] at h
        simp only [hread] at h
        cases h
      | some n =>
        rw [ofChars_eq hsplit hread] at h
        split at h
        · cases h
        rename_i hrange
        obtain ⟨rfl, hhash⟩ := splitAtHash?_eq_some_iff.mp hsplit
        have hid : UInt32.ofNat n ≤ idLimit (decide (part.length > 3)) := by
          cases hformat : decide (part.length > 3) with
          | true =>
            rw [hformat] at h
            exact le_of_ofParts h
          | false =>
            rw [hformat] at hrange
            have hsmall : n ≤ 0x7FF := by simpa using hrange
            have hword : n < UInt32.size := Nat.lt_of_le_of_lt hsmall (by decide)
            rw [UInt32.le_iff_toNat_le, UInt32.toNat_ofNat_of_lt' hword]
            exact hsmall
        obtain ⟨isRemote, dlc, data, hpayload, htells⟩ := (ofParts_eq_ok_iff hid).mp h
        exact .mk hhash (identifier_iff.mpr ⟨hread, rfl, hid⟩) hpayload htells
  · intro h
    cases h with
    | @mk part payload isExtended isRemote id dlc data f hhash hid hpayload htells =>
      obtain ⟨hread, hextended, hle⟩ := identifier_iff.mp hid
      have hrange : (!isExtended && decide (id > 0x7FF)) = false := by
        cases isExtended with
        | true => rfl
        | false =>
          have hsmall : id ≤ 0x7FF := hid.le
          simpa using hsmall
      rw [ofChars_eq (splitAtHash?_append hhash) hread, ← hextended, hrange,
        if_neg Bool.false_ne_true]
      exact (ofParts_eq_ok_iff hle).mpr ⟨isRemote, dlc, data, hpayload, htells⟩

theorem ofText_of_notates {s : String} {f : Frame} (h : Notates s.toList f) :
    ofText s = .ok f := by
  rw [ofText, ofChars_eq_ok_iff.mpr h]
  rfl

theorem notates_of_ofText {s : String} {f : Frame} (h : ofText s = .ok f) :
    Notates s.toList f :=
  ofChars_eq_ok_iff.mp (eq_ok_of_mapError h)

/-- Every text is read or refused for what it is. -/
theorem ofText_or (s : String) :
    (∃ f, ofText s = .ok f) ∨ ∃ text, ofText s = .error (.invalidFrame text) := by
  unfold ofText
  cases ofChars s.toList with
  | ok f => exact Or.inl ⟨f, rfl⟩
  | error fault => exact Or.inr ⟨fault.text, rfl⟩

theorem Payload.isRemote_iff {isRemote : Bool} {dlc : Nat} {data : List UInt8}
    (h : Payload payload isRemote dlc data) : isRemote = true ↔ payload.head? = some 'R' := by
  cases h with
  | request | requestOf => exact iff_of_true rfl rfl
  | data hoctets => exact iff_of_false Bool.false_ne_true hoctets.head?_ne

/-- What a text says of its frame, by the parts before and behind the first `#`. -/
theorem Notates.format {f : Frame} (h : Notates (part ++ '#' :: payload) f) (hhash : '#' ∉ part) :
    f.flags = 0 ∧ (f.isExtended = true ↔ 3 < byteSize part) ∧
      (f.isRemote = true ↔ payload.head? = some 'R') ∧ Numeral 16 part f.id.toNat := by
  generalize htext : part ++ '#' :: payload = text at h
  cases h with
  | @mk part' payload' isExtended isRemote id dlc data f hhash' hid hpayload htells =>
    have hparts : splitAtHash? (part ++ '#' :: payload) = some (part, payload) :=
      splitAtHash?_append hhash
    rw [htext, splitAtHash?_append hhash'] at hparts
    cases hparts
    obtain ⟨-, -, hle⟩ := identifier_iff.mp hid
    obtain ⟨hextended, hremote, hid'⟩ := format_of_rawId hle htells.rawId_eq
    have hlimit := toNat_idLimit_le isExtended
    have hword : id < UInt32.size := Nat.lt_of_le_of_lt (hid.le.trans hlimit) (by decide)
    refine ⟨htells.flags_eq, ?_, ?_, ?_⟩
    · rw [hextended]
      exact hid.format_iff
    · rw [hremote]
      exact hpayload.isRemote_iff
    · rw [hid', UInt32.toNat_ofNat_of_lt' hword]
      exact hid.numeral

/-- Data that pass the first check can be cut into pairs of bytes. -/
theorem boundary_of_ofParts {id : UInt32} {isExtended : Bool} (hhead : payload.head? ≠ some 'R')
    (hpasses : ofParts id isExtended payload ≠ .error (.dataPairs payload)) {k : Nat}
    (hk : 2 * k < byteSize (payload.filter (· ≠ '.'))) :
    Boundary (payload.filter (· ≠ '.')) (2 * k) ∧
      Boundary (payload.filter (· ≠ '.')) (2 * k + 2) := by
  rw [ofParts_data hhead] at hpasses
  generalize payload.filter (· ≠ '.') = digits at hk hpasses ⊢
  simp only at hpasses
  split at hpasses
  · exact absurd rfl hpasses
  rename_i hcheck
  rw [Bool.not_eq_true, Bool.or_eq_false_iff, List.any_eq_false] at hcheck
  have hascii : ∀ c ∈ digits, c.toNat < 128 := by
    intro c hc
    simpa using hcheck.1 c hc
  have heven : digits.length % 2 = 0 := by simpa using hcheck.2
  rw [Text.byteSize_eq_length hascii] at hk
  exact ⟨Text.boundary_of_ascii hascii (by omega), Text.boundary_of_ascii hascii (by omega)⟩

/-- The texts that are read as frames are those of the notation, and every other text is an invalid
frame. What is read says what the text says: the format by the bytes in front of the first `#`, a
request by the `R` behind it. And where the data are cut into pairs of bytes, no cut goes through a
character. -/
theorem ofText_eq_ok_iff :
    (∀ s f, ofText s = .ok f ↔ Notates s.toList f) ∧
    (∀ s, (¬ ∃ f, Notates s.toList f) ↔ ∃ text, ofText s = .error (.invalidFrame text)) ∧
    (∀ part payload f, '#' ∉ part → Notates (part ++ '#' :: payload) f →
      f.flags = 0 ∧ (f.isExtended = true ↔ 3 < byteSize part) ∧
        (f.isRemote = true ↔ payload.head? = some 'R') ∧ Numeral 16 part f.id.toNat) ∧
    ∀ id isExtended payload, payload.head? ≠ some 'R' →
      ofParts id isExtended payload ≠ .error (.dataPairs payload) →
        ∀ k, 2 * k < byteSize (payload.filter (· ≠ '.')) →
          Boundary (payload.filter (· ≠ '.')) (2 * k) ∧
            Boundary (payload.filter (· ≠ '.')) (2 * k + 2) := by
  refine ⟨fun s f => ⟨notates_of_ofText, ofText_of_notates⟩, ?_,
    fun part payload f hhash h => h.format hhash,
    fun id isExtended payload hhead hpasses k hk => boundary_of_ofParts hhead hpasses hk⟩
  intro s
  constructor
  · intro hnone
    rcases ofText_or s with ⟨f, hread⟩ | herror
    · exact absurd ⟨f, notates_of_ofText hread⟩ hnone
    · exact herror
  · rintro ⟨text, herror⟩ ⟨f, hf⟩
    rw [ofText_of_notates hf] at herror
    cases herror

/-- Leading zeros make a format extended, dots go anywhere, a sign takes the place of a digit; a
length of nine and half a pair are refused. -/
example : (ofText "0001#+1.a.B").toOption.map Frame.rawId = some 0x80000001 ∧
    (ofText "0001#+1.a.B").toOption.map Frame.data = some [0x01, 0xAB] ∧
    (ofText "7ff#R+08").toOption.map Frame.dlc = some 8 ∧
    (ofText "7ff#R9").toOption = none ∧ (ofText "7ff#01.2").toOption = none := by
  decide +kernel

end CanTransport.Frame
