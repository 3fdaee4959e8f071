import PulsarVerifier.Lib.Protobuf

/-!
# Protobuf messages with numbers and byte strings

A field is a number, written as a varint, or a payload with its length in front.  A message is read with the schema of
its type: a declared field must have the wire type of its declaration, and an unknown field is skipped.  What is written
with declared fields is read back (`fields_message`).  Groups are not read.
-/

namespace Proto3

open Protobuf

inductive Value
  | number (n : Nat)
  | payload (bytes : List UInt8)
  deriving DecidableEq

abbrev Entry := Nat × Value

/-- The wire type is 0 for a number and 2 for a payload. -/
def entry : Entry → List UInt8
  | (tag, .number n) => varint (8 * tag) ++ varint n
  | (tag, .payload bytes) => varint (8 * tag + 2) ++ (varint bytes.length ++ bytes)

def message (entries : List Entry) : List UInt8 := entries.flatMap entry

/-- The fields that a message type declares: the tags of its numbers and of its payloads. -/
structure Schema where
  numbers : List Nat
  payloads : List Nat

def Schema.Declares (schema : Schema) : Entry → Prop
  | (tag, .number _) => tag ≠ 0 ∧ tag ∈ schema.numbers
  | (tag, .payload _) => tag ≠ 0 ∧ tag ∉ schema.numbers ∧ tag ∈ schema.payloads

/-- A payload behind its length, and what follows it. -/
def readPayload (bytes : List UInt8) : Option (List UInt8 × List UInt8) :=
  (readVarint bytes).bind fun (length, rest) =>
    if rest.length < length then none else some (rest.take length, rest.drop length)

def skipBytes (n : Nat) (bytes : List UInt8) : Option (List UInt8) :=
  if bytes.length < n then none else some (bytes.drop n)

/-- What follows an unknown field: wire types 1 and 5 are numbers of fixed width. -/
def skipField : Nat → List UInt8 → Option (List UInt8)
  | 0, bytes => (readVarint bytes).map (·.2)
  | 1, bytes => skipBytes 8 bytes
  | 2, bytes => (readPayload bytes).map (·.2)
  | 5, bytes => skipBytes 4 bytes
  | _, _ => none

/-- The field of a key, unless it is unknown, and what follows it. -/
def readField (schema : Schema) (key : Nat) (bytes : List UInt8) : Option (List Entry × List UInt8) :=
  let tag := key / 8
  let wireType := key % 8
  if tag = 0 then none
  else if tag ∈ schema.numbers then
    if wireType = 0 then (readVarint bytes).map fun (n, rest) => ([(tag, .number n)], rest) else none
  else if tag ∈ schema.payloads then
    if wireType = 2 then (readPayload bytes).map fun (payload, rest) => ([(tag, .payload payload)], rest) else none
  else (skipField wireType bytes).map fun rest => ([], rest)

/-- Reads at most `fuel` fields. -/
def readEntries (schema : Schema) : Nat → List UInt8 → Option (List Entry)
  | _, [] => some []
  | 0, _ :: _ => none
  | fuel + 1, byte :: rest =>
    (readVarint (byte :: rest)).bind fun (key, rest) =>
      (readField schema key rest).bind fun (read, rest) => (readEntries schema fuel rest).map (read ++ ·)

/-- A number that is left out when it is zero. -/
def omitZero (tag n : Nat) : List Entry := if n = 0 then [] else [(tag, .number n)]

/-- A payload that is left out when it is empty. -/
def omitEmpty (tag : Nat) (bytes : List UInt8) : List Entry := if bytes.isEmpty then [] else [(tag, .payload bytes)]

def payloads (tag : Nat) (entries : List Entry) : List (List UInt8) :=
  entries.filterMap fun
    | (tag', .payload bytes) => if tag' = tag then some bytes else none
    | (_, .number _) => none

/-- The last payload with this tag, or the empty one. -/
def payload (tag : Nat) (entries : List Entry) : List UInt8 := (payloads tag entries).getLastD []

def numbers (tag : Nat) (entries : List Entry) : List Nat :=
  entries.filterMap fun
    | (tag', .number n) => if tag' = tag then some n else none
    | (_, .payload _) => none

/-- The last number with this tag, or zero. -/
def number (tag : Nat) (entries : List Entry) : Nat := (numbers tag entries).getLastD 0

/-- The fields of a message, or the text of the error of the decoder. -/
def fields (schema : Schema) (bytes : List UInt8) : Except String (List Entry) :=
  match readEntries schema bytes.length bytes with
  | some entries => .ok entries
  | none => .error "failed to decode Protobuf message: invalid wire type value"

def utf8 (bytes : List UInt8) : Except String String :=
  match String.fromUTF8? ⟨⟨bytes⟩⟩ with
  | some text => .ok text
  | none => .error "failed to decode Protobuf message: invalid string value: data is not UTF-8 encoded"

/-- The value of a string field.  Every occurrence is checked. -/
def string (tag : Nat) (entries : List Entry) : Except String String :=
  ((payloads tag entries).mapM utf8).map (·.getLastD "")

/-- The value of a `oneof`: every member that occurs is decoded, and the last one stays. -/
def oneof {α : Type} (ofEntry : Entry → Option (Except String α)) (entries : List Entry) : Except String (Option α) :=
  entries.foldlM (fun last e => ((ofEntry e).map fun read => read.map some).getD (.ok last)) none

/-! ### Round trip -/

theorem entry_ne_nil (e : Entry) : entry e ≠ [] := by
  obtain ⟨tag, value⟩ := e
  cases value <;> simp [entry, varint_ne_nil]

private theorem readPayload_append (bytes rest : List UInt8) :
    readPayload (varint bytes.length ++ (bytes ++ rest)) = some (bytes, rest) := by
  have hfits : ¬ bytes.length + rest.length < bytes.length := by omega
  simp [readPayload, readVarint_varint, hfits]

private theorem readEntries_cons {schema : Schema} {e : Entry} (h : schema.Declares e) (fuel : Nat)
    (rest : List UInt8) :
    readEntries schema (fuel + 1) (entry e ++ rest) = (readEntries schema fuel rest).map (e :: ·) := by
  obtain ⟨byte, tail, hcons⟩ := List.exists_cons_of_ne_nil (List.append_ne_nil_of_left_ne_nil (entry_ne_nil e) rest)
  rw [hcons, readEntries, ← hcons]
  obtain ⟨tag, value⟩ := e
  cases value with
  | number n =>
    obtain ⟨hzero, hdeclared⟩ := h
    have hkey : 8 * tag % 8 = 0 ∧ 8 * tag / 8 = tag := by omega
    rw [entry, List.append_assoc, readVarint_varint]
    have htag : ¬ 8 * tag < 8 := by omega
    simp [readField, hkey, htag, hdeclared, readVarint_varint]
  | payload bytes =>
    obtain ⟨hzero, hother, hdeclared⟩ := h
    have hkey : (8 * tag + 2) % 8 = 2 ∧ (8 * tag + 2) / 8 = tag := by omega
    rw [entry, List.append_assoc, List.append_assoc, readVarint_varint]
    have htag : ¬ 8 * tag + 2 < 8 := by omega
    simp [readField, hkey, htag, hother, hdeclared, readPayload_append]

theorem readEntries_message {schema : Schema} {fuel : Nat} {entries : List Entry} (hfuel : entries.length ≤ fuel)
    (h : ∀ e ∈ entries, schema.Declares e) : readEntries schema fuel (message entries) = some entries := by
  induction entries generalizing fuel with
  | nil => cases fuel <;> rfl
  | cons e entries ih =>
    obtain ⟨fuel, rfl⟩ : ∃ n, fuel = n + 1 := ⟨fuel - 1, by simp at hfuel; omega⟩
    rw [List.forall_mem_cons] at h
    have hbytes : message (e :: entries) = entry e ++ message entries := rfl
    rw [hbytes, readEntries_cons h.1, ih (Nat.le_of_succ_le_succ hfuel) h.2]
    rfl

theorem length_le_message (entries : List Entry) : entries.length ≤ (message entries).length := by
  induction entries with
  | nil => exact Nat.zero_le _
  | cons e entries ih =>
    have hpos : 0 < (entry e).length := List.length_pos_iff.2 (entry_ne_nil e)
    have happend : (message (e :: entries)).length = (entry e).length + (message entries).length := by
      simp [message]
    rw [happend, List.length_cons]
    omega

theorem fields_message {schema : Schema} {entries : List Entry} (h : ∀ e ∈ entries, schema.Declares e) :
    fields schema (message entries) = .ok entries := by
  unfold fields
  rw [readEntries_message (length_le_message entries) h]

@[simp] theorem mem_omitZero {tag n : Nat} {e : Entry} : e ∈ omitZero tag n ↔ n ≠ 0 ∧ e = (tag, .number n) := by
  unfold omitZero
  by_cases hn : n = 0 <;> simp [hn]

@[simp] theorem mem_omitEmpty {tag : Nat} {bytes : List UInt8} {e : Entry} :
    e ∈ omitEmpty tag bytes ↔ bytes ≠ [] ∧ e = (tag, .payload bytes) := by
  unfold omitEmpty
  cases bytes <;> simp

theorem oneof_append {α : Type} {ofEntry : Entry → Option (Except String α)} {entry : α → Entry}
    {entries : List Entry} {value : Option α} (hother : ∀ e ∈ entries, ofEntry e = none)
    (h : ∀ a ∈ value, ofEntry (entry a) = some (.ok a)) :
    oneof ofEntry (entries ++ (value.map entry).toList) = .ok value := by
  unfold oneof
  induction entries with
  | nil =>
    cases value with
    | none => rfl
    | some a =>
      have ha : ofEntry (entry a) = some (.ok a) := h a rfl
      simp [ha]
      rfl
  | cons e entries ih =>
    rw [List.forall_mem_cons] at hother
    rw [List.cons_append, List.foldlM_cons, hother.1]
    exact ih hother.2

/-! ### Lookups -/

@[simp] theorem payloads_nil (tag : Nat) : payloads tag [] = [] := rfl

@[simp] theorem payloads_append (tag : Nat) (entries entries' : List Entry) :
    payloads tag (entries ++ entries') = payloads tag entries ++ payloads tag entries' :=
  List.filterMap_append ..

@[simp] theorem payloads_payload (tag tag' : Nat) (bytes : List UInt8) :
    payloads tag [(tag', .payload bytes)] = if tag' = tag then [bytes] else [] := by
  by_cases h : tag' = tag <;> simp [payloads, h]

@[simp] theorem payloads_map (tag tag' : Nat) (items : List (List UInt8)) :
    payloads tag (items.map fun bytes => (tag', .payload bytes)) = if tag' = tag then items else [] := by
  unfold payloads
  by_cases h : tag' = tag <;> simp [List.filterMap_map, h]

@[simp] theorem payloads_omitZero (tag tag' n : Nat) : payloads tag (omitZero tag' n) = [] := by
  unfold omitZero
  split_ifs <;> rfl

@[simp] theorem payloads_omitEmpty (tag tag' : Nat) (bytes : List UInt8) :
    payloads tag (omitEmpty tag' bytes) = if tag' = tag ∧ bytes ≠ [] then [bytes] else [] := by
  unfold omitEmpty
  cases bytes <;> simp

@[simp] theorem numbers_append (tag : Nat) (entries entries' : List Entry) :
    numbers tag (entries ++ entries') = numbers tag entries ++ numbers tag entries' :=
  List.filterMap_append ..

@[simp] theorem numbers_omitEmpty (tag tag' : Nat) (bytes : List UInt8) : numbers tag (omitEmpty tag' bytes) = [] := by
  unfold omitEmpty
  split_ifs <;> rfl

@[simp] theorem numbers_omitZero (tag tag' n : Nat) :
    numbers tag (omitZero tag' n) = if tag' = tag ∧ n ≠ 0 then [n] else [] := by
  unfold omitZero
  by_cases hn : n = 0
  · simp [hn, numbers]
  · by_cases htag : tag' = tag <;> simp [hn, htag, numbers]

theorem payload_eq {tag : Nat} {bytes : List UInt8} {entries : List Entry}
    (h : payloads tag entries = if bytes ≠ [] then [bytes] else []) : payload tag entries = bytes := by
  unfold payload
  rw [h]
  by_cases hbytes : bytes = []
  · rw [if_neg (not_not.2 hbytes), hbytes]
    rfl
  · rw [if_pos hbytes]
    rfl

/-- A string that was left out reads as the empty one. -/
theorem string_eq {tag : Nat} {text : String} {entries : List Entry}
    (h : payloads tag entries = if text.toUTF8.data.toList ≠ [] then [text.toUTF8.data.toList] else []) :
    string tag entries = .ok text := by
  have hread : utf8 text.toUTF8.data.toList = .ok text := by
    unfold utf8
    rw [fromUTF8_toUTF8]
  unfold string
  rw [h]
  by_cases hempty : text.toUTF8.data.toList = []
  · obtain rfl : text = "" := by
      rw [hempty] at hread
      cases hread
      rfl
    rw [if_neg (not_not.2 hempty)]
    rfl
  · rw [if_pos hempty, List.mapM_cons, hread]
    rfl

theorem number_eq {tag n : Nat} {entries : List Entry} (h : numbers tag entries = if n ≠ 0 then [n] else []) :
    number tag entries = n := by
  unfold number
  rw [h]
  by_cases hn : n = 0
  · rw [if_neg (not_not.2 hn), hn]
    rfl
  · rw [if_pos hn]
    rfl

/-! ### Lengths -/

@[simp] theorem length_message_append (entries entries' : List Entry) :
    (message (entries ++ entries')).length = (message entries).length + (message entries').length := by
  simp [message]

theorem length_message_payload (tag : Nat) (bytes : List UInt8) :
    (message [(tag, .payload bytes)]).length = (varint (8 * tag + 2)).length + (varint bytes.length).length +
      bytes.length := by
  simp only [message, List.flatMap_cons, List.flatMap_nil, List.append_nil, entry, List.length_append]
  omega

/-- A field with a one-byte key whose length takes at most `k` bytes. -/
theorem length_message_payload_le {tag k m : Nat} {bytes : List UInt8} (htag : tag < 16) (hk : k ≠ 0)
    (hm : m < 128 ^ k) (h : bytes.length ≤ m) : (message [(tag, .payload bytes)]).length ≤ 1 + k + m := by
  have hkey : (varint (8 * tag + 2)).length ≤ 1 := length_varint_le (by omega) (by omega)
  have hlength : (varint bytes.length).length ≤ k := length_varint_le hk (by omega)
  rw [length_message_payload]
  omega

theorem length_message_omitEmpty_le {tag k m : Nat} {bytes : List UInt8} (htag : tag < 16) (hk : k ≠ 0)
    (hm : m < 128 ^ k) (h : bytes.length ≤ m) : (message (omitEmpty tag bytes)).length ≤ 1 + k + m := by
  unfold omitEmpty
  split
  · exact Nat.zero_le _
  · exact length_message_payload_le htag hk hm h

theorem length_message_omitZero_le {tag n : Nat} (htag : tag < 16) (hn : n < 128) :
    (message (omitZero tag n)).length ≤ 2 := by
  unfold omitZero
  split
  · exact Nat.zero_le _
  · have hkey : (varint (8 * tag)).length ≤ 1 := length_varint_le (by omega) (by omega)
    have hvalue : (varint n).length ≤ 1 := length_varint_le (by omega) (by omega)
    simp only [message, List.flatMap_cons, List.flatMap_nil, List.append_nil, entry, List.length_append]
    omega

theorem length_message_map_le {α : Type} {f : α → List UInt8} {tag k m : Nat} (htag : tag < 16) (hk : k ≠ 0)
    (hm : m < 128 ^ k) {items : List α} (h : ∀ item ∈ items, (f item).length ≤ m) :
    (message (items.map fun item => (tag, .payload (f item)))).length ≤ items.length * (1 + k + m) := by
  induction items with
  | nil => exact Nat.zero_le _
  | cons item items ih =>
    rw [List.forall_mem_cons] at h
    have hhead : (message [(tag, .payload (f item))]).length ≤ 1 + k + m := length_message_payload_le htag hk hm h.1
    have htail := ih h.2
    rw [List.map_cons, ← List.singleton_append, length_message_append, List.length_cons, Nat.succ_mul]
    omega

end Proto3
