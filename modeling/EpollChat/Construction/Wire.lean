import EpollChat.Construction.Proto
import EpollChat.Framework.Framing

/-!
# The protobuf wire format

A concrete `Achelper`: the public protobuf encoding for fields of wire types 0 and 2.  The
theorems hold for every `Achelper`; this one is what their examples run on.
-/

namespace EpollChat

/-- The base-128 varint of a number. -/
def encodeVarint : ℕ → ℕ → Bytes
  | 0, _ => []
  | fuel + 1, n =>
      if n < 128 then [UInt8.ofNat n] else UInt8.ofNat (n % 128 + 128) :: encodeVarint fuel (n / 128)

/-- A field: its key, then its value. -/
def encodeField (f : ProtobufField) : Bytes :=
  match f.value with
  | .varint n => encodeVarint 5 (f.id * 8) ++ encodeVarint 10 n
  | .bytes b => encodeVarint 5 (f.id * 8 + 2) ++ encodeVarint 10 b.length ++ b

/-- Read a varint. -/
def decodeVarint : Bytes → Option (ℕ × Bytes)
  | [] => none
  | b :: rest =>
      if b < 128 then some (b.toNat, rest)
      else (decodeVarint rest).map fun (n, rest) => (b.toNat - 128 + 128 * n, rest)

/-- Read a field. -/
def decodeField (bytes : Bytes) : Option (ProtobufField × Bytes) := do
  let (key, bytes) ← decodeVarint bytes
  match key % 8 with
  | 0 =>
      let (n, bytes) ← decodeVarint bytes
      return (⟨key / 8, .varint n⟩, bytes)
  | 2 =>
      let (len, bytes) ← decodeVarint bytes
      if len ≤ bytes.length then return (⟨key / 8, .bytes (bytes.take len)⟩, bytes.drop len)
      else none
  | _ => none

/-- Read a number of fields. -/
def decodeFields : ℕ → Bytes → Option (ProtobufMessage × Bytes)
  | 0, bytes => some ([], bytes)
  | n + 1, bytes => do
      let (f, bytes) ← decodeField bytes
      let (fs, bytes) ← decodeFields n bytes
      return (f :: fs, bytes)

/-- Read fields to the end. -/
def decodeAllFields : ℕ → Bytes → Option ProtobufMessage
  | _, [] => some []
  | 0, _ => none
  | fuel + 1, bytes => do
      let (f, bytes) ← decodeField bytes
      let fs ← decodeAllFields fuel bytes
      return f :: fs

/-- The protobuf wire format. -/
def protobufWire : Achelper where
  encodeProtobufMsg msg := msg.flatMap encodeField
  decodeProtobufMsg bytes := decodeAllFields bytes.length bytes
  decodeProtobufMsgWithNFields bytes n :=
    (decodeFields n bytes).map fun (msg, rest) => (msg, bytes.length - rest.length)

/-! ## More input does not change what was decoded -/

lemma decodeVarint_append {bytes : Bytes} {n : ℕ} {rest : Bytes}
    (h : decodeVarint bytes = some (n, rest)) :
    rest.length ≤ bytes.length ∧
      ∀ more, decodeVarint (bytes ++ more) = some (n, rest ++ more) := by
  induction bytes generalizing n rest with
  | nil => cases h
  | cons b bytes ih =>
      simp only [decodeVarint] at h
      split at h
      · next hlast =>
          obtain ⟨rfl, rfl⟩ : b.toNat = n ∧ bytes = rest := by simpa using h
          exact ⟨by simp, fun more => by simp only [List.cons_append, decodeVarint, if_pos hlast]⟩
      · next hmore =>
          obtain ⟨⟨n', rest'⟩, hdec, heq⟩ := Option.map_eq_some_iff.mp h
          obtain ⟨hlen, happ⟩ := ih hdec
          obtain ⟨rfl, rfl⟩ : b.toNat - 128 + 128 * n' = n ∧ rest' = rest := by simpa using heq
          refine ⟨by rw [List.length_cons]; omega, fun more => ?_⟩
          simp only [List.cons_append, decodeVarint, if_neg hmore, happ, Option.map_some]

lemma decodeField_append {bytes : Bytes} {f : ProtobufField} {rest : Bytes}
    (h : decodeField bytes = some (f, rest)) :
    rest.length ≤ bytes.length ∧
      ∀ more, decodeField (bytes ++ more) = some (f, rest ++ more) := by
  obtain ⟨⟨key, bytes₁⟩, hkey, h⟩ := Option.bind_eq_some_iff.mp h
  obtain ⟨hlen₁, happ₁⟩ := decodeVarint_append hkey
  dsimp only at h
  split at h
  · next hwire =>
      obtain ⟨⟨n, bytes₂⟩, hn, h⟩ := Option.bind_eq_some_iff.mp h
      obtain ⟨hlen₂, happ₂⟩ := decodeVarint_append hn
      obtain ⟨rfl, rfl⟩ : ⟨key / 8, .varint n⟩ = f ∧ bytes₂ = rest := by simpa using h
      exact ⟨by omega, fun more => by simp [decodeField, happ₁, hwire, happ₂]⟩
  · next hwire =>
      obtain ⟨⟨len, bytes₂⟩, hn, h⟩ := Option.bind_eq_some_iff.mp h
      obtain ⟨hlen₂, happ₂⟩ := decodeVarint_append hn
      dsimp only at h
      split at h
      · next hfits =>
          obtain ⟨rfl, rfl⟩ :
              ⟨key / 8, .bytes (bytes₂.take len)⟩ = f ∧ bytes₂.drop len = rest := by
            simpa using h
          refine ⟨by rw [List.length_drop]; omega, fun more => ?_⟩
          have hfits' : len ≤ bytes₂.length + more.length := by omega
          simp [decodeField, happ₁, hwire, happ₂, hfits', List.take_append_of_le_length hfits,
            List.drop_append_of_le_length hfits]
      · cases h
  · cases h

lemma decodeFields_append {n : ℕ} {bytes : Bytes} {msg : ProtobufMessage} {rest : Bytes}
    (h : decodeFields n bytes = some (msg, rest)) :
    rest.length ≤ bytes.length ∧
      ∀ more, decodeFields n (bytes ++ more) = some (msg, rest ++ more) := by
  induction n generalizing bytes msg rest with
  | zero =>
      obtain ⟨rfl, rfl⟩ : [] = msg ∧ bytes = rest := by simpa [decodeFields] using h
      exact ⟨le_rfl, fun more => rfl⟩
  | succ n ih =>
      obtain ⟨⟨f, bytes₁⟩, hf, h⟩ := Option.bind_eq_some_iff.mp h
      obtain ⟨⟨fs, bytes₂⟩, hfs, h⟩ := Option.bind_eq_some_iff.mp h
      obtain ⟨rfl, rfl⟩ : f :: fs = msg ∧ bytes₂ = rest := by simpa using h
      obtain ⟨hlen₁, happ₁⟩ := decodeField_append hf
      obtain ⟨hlen₂, happ₂⟩ := ih hfs
      exact ⟨by omega, fun more => by simp [decodeFields, happ₁, happ₂]⟩

/-- The wire format can be decoded incrementally. -/
lemma incremental_protobufWire (n : ℕ) :
    Incremental fun bytes => protobufWire.decodeProtobufMsgWithNFields bytes n := by
  refine .of_stable fun bytes msg count h => ?_
  obtain ⟨⟨msg', rest⟩, hdec, heq⟩ := Option.map_eq_some_iff.mp h
  obtain ⟨hlen, happ⟩ := decodeFields_append hdec
  obtain ⟨rfl, rfl⟩ : msg' = msg ∧ bytes.length - rest.length = count := by simpa using heq
  refine ⟨Nat.sub_le _ _, fun more => ?_⟩
  simp only [protobufWire, happ, Option.map_some, List.length_append]
  rw [Nat.add_sub_add_right]

/-! ## What was encoded is decoded -/

/-- The bytes in a field. -/
def FieldValue.size : FieldValue → ℕ
  | .varint _ => 0
  | .bytes b => b.length

/-- A field that the format has room for. -/
structure ProtobufField.Encodable (f : ProtobufField) : Prop where
  id : f.id < 2 ^ 29
  varint : ∀ n, f.value = .varint n → n < 2 ^ 64
  length : f.value.size < 2 ^ 64

lemma encodable_varint {id n : ℕ} (hid : id < 2 ^ 29) (hn : n < 2 ^ 64) :
    ProtobufField.Encodable ⟨id, .varint n⟩ where
  id := hid
  varint m h := by
    obtain rfl := FieldValue.varint.inj h
    exact hn
  length := Nat.two_pow_pos 64

lemma encodable_bytes {id : ℕ} {b : Bytes} (hid : id < 2 ^ 29) (hb : b.length < 2 ^ 64) :
    ProtobufField.Encodable ⟨id, .bytes b⟩ where
  id := hid
  varint n h := by cases h
  length := hb

/-- The codec returns what was encoded, and a field takes at most 15 bytes besides its own. -/
structure Achelper.Lawful (ac : Achelper) : Prop where
  decode : ∀ msg, (∀ f ∈ msg, f.Encodable) →
    ac.decodeProtobufMsg (ac.encodeProtobufMsg msg) = some msg
  decodeWithNFields : ∀ msg, (∀ f ∈ msg, f.Encodable) →
    ac.decodeProtobufMsgWithNFields (ac.encodeProtobufMsg msg) msg.length =
      some (msg, (ac.encodeProtobufMsg msg).length)
  length_le : ∀ msg,
    (ac.encodeProtobufMsg msg).length ≤ (msg.map fun f => f.value.size + 15).sum

lemma length_encodeVarint_le (fuel n : ℕ) : (encodeVarint fuel n).length ≤ fuel := by
  induction fuel generalizing n with
  | zero => exact le_rfl
  | succ fuel ih =>
      rw [encodeVarint]
      split
      · rw [List.length_singleton]
        omega
      · rw [List.length_cons]
        exact Nat.succ_le_succ (ih _)

lemma decodeVarint_encodeVarint {fuel n : ℕ} (hfuel : 0 < fuel) (hn : n < 128 ^ fuel)
    (rest : Bytes) : decodeVarint (encodeVarint fuel n ++ rest) = some (n, rest) := by
  induction fuel generalizing n with
  | zero => omega
  | succ fuel ih =>
      rw [encodeVarint]
      split
      · next hlast =>
          have hbyte : (UInt8.ofNat n).toNat = n := by
            rw [UInt8.toNat_ofNat']
            omega
          have hlt : UInt8.ofNat n < 128 := by
            rw [UInt8.lt_iff_toNat_lt, hbyte]
            exact hlast
          rw [List.singleton_append, decodeVarint, if_pos hlt, hbyte]
      · next hmore =>
          have hbyte : (UInt8.ofNat (n % 128 + 128)).toNat = n % 128 + 128 := by
            rw [UInt8.toNat_ofNat']
            omega
          have hge : ¬ UInt8.ofNat (n % 128 + 128) < 128 := by
            rw [UInt8.lt_iff_toNat_lt, hbyte]
            exact Nat.not_lt.2 (Nat.le_add_left 128 _)
          have hfuel' : 0 < fuel := by
            by_contra hzero
            obtain rfl : fuel = 0 := by omega
            omega
          have hdiv : n / 128 < 128 ^ fuel := by
            rw [Nat.div_lt_iff_lt_mul (by decide), ← Nat.pow_succ]
            exact hn
          have hsum : n % 128 + 128 - 128 + 128 * (n / 128) = n := by omega
          rw [List.cons_append, decodeVarint, if_neg hge, ih hfuel' hdiv, Option.map_some]
          dsimp only
          rw [hbyte, hsum]

lemma decodeField_encodeField {f : ProtobufField} (h : f.Encodable) (rest : Bytes) :
    decodeField (encodeField f ++ rest) = some (f, rest) := by
  obtain ⟨id, value⟩ := f
  have hid : id < 2 ^ 29 := h.id
  cases value with
  | varint n =>
      have hn : n < 2 ^ 64 := h.varint n rfl
      have hkey := @decodeVarint_encodeVarint 5 (id * 8) (by decide) (by omega)
        (encodeVarint 10 n ++ rest)
      have hvalue := @decodeVarint_encodeVarint 10 n (by decide) (by omega) rest
      have hwire : id * 8 % 8 = 0 := by omega
      have hdiv : id * 8 / 8 = id := by omega
      simp [encodeField, decodeField, hkey, hvalue, hwire, hdiv]
  | bytes b =>
      have hlength : b.length < 2 ^ 64 := h.length
      have hkey := @decodeVarint_encodeVarint 5 (id * 8 + 2) (by decide) (by omega)
        (encodeVarint 10 b.length ++ (b ++ rest))
      have hvalue := @decodeVarint_encodeVarint 10 b.length (by decide) (by omega) (b ++ rest)
      have hwire : (id * 8 + 2) % 8 = 2 := by omega
      have hdiv : (id * 8 + 2) / 8 = id := by omega
      simp [encodeField, decodeField, hkey, hvalue, hwire, hdiv]

lemma length_encodeField_le (f : ProtobufField) : (encodeField f).length ≤ f.value.size + 15 := by
  obtain ⟨id, value⟩ := f
  cases value with
  | varint n =>
      have hkey := length_encodeVarint_le 5 (id * 8)
      have hvalue := length_encodeVarint_le 10 n
      simp only [encodeField, FieldValue.size, List.length_append]
      omega
  | bytes b =>
      have hkey := length_encodeVarint_le 5 (id * 8 + 2)
      have hvalue := length_encodeVarint_le 10 b.length
      simp only [encodeField, FieldValue.size, List.length_append]
      omega

lemma encodeField_ne_nil (f : ProtobufField) : encodeField f ≠ [] := by
  have hvarint : ∀ fuel n, encodeVarint (fuel + 1) n ≠ [] := by
    intro fuel n
    rw [encodeVarint]
    split <;> exact List.cons_ne_nil _ _
  obtain ⟨id, value⟩ := f
  cases value <;> simp [encodeField, hvarint]

lemma decodeFields_encode {msg : ProtobufMessage} (h : ∀ f ∈ msg, f.Encodable) (rest : Bytes) :
    decodeFields msg.length (msg.flatMap encodeField ++ rest) = some (msg, rest) := by
  induction msg with
  | nil => rfl
  | cons f msg ih =>
      rw [List.forall_mem_cons] at h
      rw [List.flatMap_cons, List.append_assoc, List.length_cons, decodeFields,
        decodeField_encodeField h.1]
      simp [ih h.2]

lemma decodeAllFields_encode {msg : ProtobufMessage} (h : ∀ f ∈ msg, f.Encodable) {fuel : ℕ}
    (hfuel : msg.length ≤ fuel) : decodeAllFields fuel (msg.flatMap encodeField) = some msg := by
  induction msg generalizing fuel with
  | nil => simp [decodeAllFields]
  | cons f msg ih =>
      rw [List.forall_mem_cons] at h
      obtain ⟨fuel, rfl⟩ : ∃ k, fuel = k + 1 := ⟨fuel - 1, by rw [List.length_cons] at hfuel; omega⟩
      have hdec := decodeField_encodeField h.1 (msg.flatMap encodeField)
      rw [List.flatMap_cons, decodeAllFields]
      · simp [hdec, ih h.2 (Nat.le_of_succ_le_succ hfuel)]
      · simp [encodeField_ne_nil]

lemma length_le_encode (msg : ProtobufMessage) : msg.length ≤ (msg.flatMap encodeField).length := by
  induction msg with
  | nil => exact le_rfl
  | cons f msg ih =>
      have hpos := List.length_pos_iff.2 (encodeField_ne_nil f)
      rw [List.flatMap_cons, List.length_append, List.length_cons]
      omega

/-- The wire format is lawful. -/
lemma lawful_protobufWire : protobufWire.Lawful where
  decode msg h := decodeAllFields_encode h (length_le_encode msg)
  decodeWithNFields msg h := by
    have hdec := decodeFields_encode h []
    rw [List.append_nil] at hdec
    simp [protobufWire, hdec]
  length_le msg := by
    induction msg with
    | nil => exact le_rfl
    | cons f msg ih =>
        have hfield := length_encodeField_le f
        simp only [protobufWire, List.flatMap_cons, List.length_append, List.map_cons,
          List.sum_cons] at ih ⊢
        omega

end EpollChat
