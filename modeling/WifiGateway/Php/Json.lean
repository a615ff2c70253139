import WifiGateway.Php.Value

/-!
# PHP data and JSON

What `json_encode` makes of a value, and `json_decode` of a JSON value. A JSON text is taken as
the value that it is the text of.

An array whose keys are 0, 1, 2 and so on, in order, is encoded as a JSON array, and any other
array as a JSON object. A JSON array is decoded to an array, and a JSON object, without the second
argument of `json_decode`, to an object. So an array with string keys comes back as an object,
unless it is empty (`jsonDecode_assoc`).

Both functions stop at a depth of 512: `json_encode` returns false, and `json_decode` null.
-/

namespace Php

/-- A value, of all types. -/
inductive Data
  | null
  | bool (b : Bool)
  | int (i : Int)
  /-- A finite number, by its text. -/
  | float (text : String)
  | str (s : String)
  | arr (entries : List (Key × Data))
  /-- An object, by its public properties. -/
  | obj (properties : List (String × Data))
  /-- What `json_encode` refuses: a string that is not UTF-8, a number that is not finite, a
  resource. -/
  | other

/-- A JSON value; a number is an integer if `json_decode` makes it an `int`. -/
inductive Json
  | null
  | bool (b : Bool)
  | int (i : Int)
  | float (text : String)
  | str (s : String)
  | array (items : List Json)
  | object (members : List (String × Json))

/-- A key as the name of a member. -/
def Key.text : Key → String
  | .int i => toString i
  | .str s => s

/-- The keys of a list of this length, from `n` on. -/
def indexes (n : Nat) : Nat → List Key
  | 0 => []
  | len + 1 => .int n :: indexes (n + 1) len

/-- The array is a list. -/
def isList {α : Type} (entries : List (Key × α)) : Bool :=
  entries.map Prod.fst == indexes 0 entries.length

mutual

/-- The JSON value that stands for a value, if there is one. -/
def encode : Data → Option Json
  | .null => some .null
  | .bool b => some (.bool b)
  | .int i => some (.int i)
  | .float text => some (.float text)
  | .str s => some (.str s)
  | .arr entries =>
    match encodeEntries entries with
    | none => none
    | some items =>
      if isList items then some (.array (items.map Prod.snd))
      else some (.object (items.map fun item => (item.1.text, item.2)))
  | .obj properties =>
    match encodeProperties properties with
    | none => none
    | some members => some (.object members)
  | .other => none

def encodeEntries : List (Key × Data) → Option (List (Key × Json))
  | [] => some []
  | (k, d) :: rest =>
    match encode d, encodeEntries rest with
    | some j, some items => some ((k, j) :: items)
    | _, _ => none

def encodeProperties : List (String × Data) → Option (List (String × Json))
  | [] => some []
  | (name, d) :: rest =>
    match encode d, encodeProperties rest with
    | some j, some members => some ((name, j) :: members)
    | _, _ => none

end

mutual

/-- The value that a JSON value stands for. -/
def decode : Json → Data
  | .null => .null
  | .bool b => .bool b
  | .int i => .int i
  | .float text => .float text
  | .str s => .str s
  | .array items => .arr (decodeItems 0 items)
  | .object members => .obj (decodeMembers members)

def decodeItems (n : Nat) : List Json → List (Key × Data)
  | [] => []
  | j :: rest => (.int n, decode j) :: decodeItems (n + 1) rest

def decodeMembers : List (String × Json) → List (String × Data)
  | [] => []
  | (name, j) :: rest => (name, decode j) :: decodeMembers rest

end

mutual

/-- How deep arrays and objects are nested. -/
def Data.depth : Data → Nat
  | .arr entries => entriesDepth entries + 1
  | .obj properties => propertiesDepth properties + 1
  | .null | .bool _ | .int _ | .float _ | .str _ | .other => 0

def entriesDepth : List (Key × Data) → Nat
  | [] => 0
  | (_, d) :: rest => max d.depth (entriesDepth rest)

def propertiesDepth : List (String × Data) → Nat
  | [] => 0
  | (_, d) :: rest => max d.depth (propertiesDepth rest)

end

/-- The default of the argument `depth`. -/
def maxDepth : Nat := 512

/-- `json_encode`; `none` is false. -/
def jsonEncode (d : Data) : Option Json := if d.depth ≤ maxDepth then encode d else none

/-- `json_decode` of a text of this value. -/
def jsonDecode (j : Json) : Data :=
  if (decode j).depth ≤ maxDepth then decode j else .null

/-- What can be encoded this many levels down in an array. -/
def Fits (levels : Nat) (d : Data) : Prop :=
  (encode d).isSome = true ∧ d.depth + levels ≤ maxDepth

/-- `array(name => value, ...)`. -/
def assoc {α : Type} (fields : List (String × α)) : List (Key × α) :=
  fields.map fun field => (.str field.1, field.2)

variable {α : Type}

@[simp] theorem encode_null : encode .null = some .null := by simp only [encode]

@[simp] theorem encode_int (i : Int) : encode (.int i) = some (.int i) := by
  simp only [encode]

@[simp] theorem encode_str (s : String) : encode (.str s) = some (.str s) := by
  simp only [encode]

/-! ## Arrays with string keys -/

theorem isList_assoc {fields : List (String × α)} (h : fields ≠ []) :
    isList (assoc fields) = false := by
  cases fields with
  | nil => exact absurd rfl h
  | cons field rest =>
    unfold isList assoc
    rw [beq_eq_false_iff_ne]
    intro hkeys
    exact absurd (List.cons.inj hkeys).1 (by simp)

theorem encodeEntries_assoc (fields : List (String × Data)) :
    encodeEntries (assoc fields) = (encodeProperties fields).map assoc := by
  induction fields with
  | nil => simp only [assoc, List.map_nil, encodeEntries, encodeProperties, Option.map_some]
  | cons field rest ih =>
    obtain ⟨name, d⟩ := field
    have ih' : encodeEntries (rest.map fun field => (.str field.1, field.2)) =
        (encodeProperties rest).map assoc := ih
    simp only [assoc, List.map_cons, encodeEntries, encodeProperties, ih']
    cases encode d with
    | none => rfl
    | some j =>
      cases encodeProperties rest with
      | none => rfl
      | some members => rfl

/-- A non-empty array with string keys is encoded as an object. -/
theorem encode_assoc {fields : List (String × Data)} (h : fields ≠ []) :
    encode (.arr (assoc fields)) = (encodeProperties fields).map .object := by
  rw [encode, encodeEntries_assoc]
  cases hmembers : encodeProperties fields with
  | none => rfl
  | some members =>
    have hne : members ≠ [] := by
      rintro rfl
      obtain ⟨field, rest, rfl⟩ := List.exists_cons_of_ne_nil h
      obtain ⟨name, d⟩ := field
      rw [encodeProperties] at hmembers
      split at hmembers
      · exact absurd (Option.some.inj hmembers) (by simp)
      · exact absurd hmembers (by simp)
    have hnames : (assoc members).map (fun item => (item.1.text, item.2)) = members := by
      rw [assoc, List.map_map]
      exact List.map_id members
    simp only [Option.map_some, isList_assoc hne, hnames]
    rfl

theorem encodeProperties_isSome (fields : List (String × Data)) :
    (encodeProperties fields).isSome = true ↔
      ∀ field ∈ fields, (encode field.2).isSome = true := by
  induction fields with
  | nil => simp [encodeProperties]
  | cons field rest ih =>
    obtain ⟨name, d⟩ := field
    rw [List.forall_mem_cons, ← ih, encodeProperties]
    cases encode d with
    | none => simp
    | some j =>
      cases encodeProperties rest with
      | none => simp
      | some members => simp

theorem entriesDepth_assoc (fields : List (String × Data)) (n : Nat) :
    entriesDepth (assoc fields) ≤ n ↔ ∀ field ∈ fields, field.2.depth ≤ n := by
  induction fields with
  | nil => simp [assoc, entriesDepth]
  | cons field rest ih =>
    have hcons : entriesDepth (assoc (field :: rest)) =
        max field.2.depth (entriesDepth (assoc rest)) := by
      show entriesDepth ((.str field.1, field.2) :: assoc rest) = _
      rw [entriesDepth]
    rw [List.forall_mem_cons, ← ih, hcons]
    omega

/-- An array fits just if what is in it fits one level further down. -/
theorem fits_assoc {fields : List (String × Data)} (h : fields ≠ []) (levels : Nat) :
    Fits levels (.arr (assoc fields)) ↔ ∀ field ∈ fields, Fits (levels + 1) field.2 := by
  have hencode : (encode (.arr (assoc fields))).isSome = true ↔
      ∀ field ∈ fields, (encode field.2).isSome = true := by
    rw [encode_assoc h, Option.isSome_map, encodeProperties_isSome]
  have hdepth : (Data.arr (assoc fields)).depth + levels ≤ maxDepth ↔
      levels + 1 ≤ maxDepth ∧ ∀ field ∈ fields, field.2.depth ≤ maxDepth - (levels + 1) := by
    rw [Data.depth, ← entriesDepth_assoc]
    omega
  unfold Fits
  rw [hencode, hdepth]
  constructor
  · rintro ⟨hall, hlevels, hbelow⟩ field hfield
    have hle := hbelow field hfield
    exact ⟨hall field hfield, by omega⟩
  · intro hall
    refine ⟨fun field hfield => (hall field hfield).1, ?_, fun field hfield => ?_⟩
    · obtain ⟨field, hfield⟩ := List.exists_mem_of_ne_nil fields h
      have hle := (hall field hfield).2
      omega
    · have hle := (hall field hfield).2
      omega

theorem jsonEncode_isSome (d : Data) : (jsonEncode d).isSome = true ↔ Fits 0 d := by
  unfold jsonEncode Fits
  split
  · next hd => exact (and_iff_left hd).symm
  · next hd => exact iff_of_false (by simp) fun h => hd h.2

/-- An array with string keys is decoded to an object, or is too deep, unless it is empty. -/
theorem jsonDecode_assoc {fields : List (String × Data)} {j : Json}
    (h : encode (.arr (assoc fields)) = some j) :
    (∃ entries, jsonDecode j = .arr entries) ↔ fields = [] := by
  by_cases hfields : fields = []
  · subst hfields
    obtain rfl : Json.array [] = j := Option.some.inj h
    exact iff_of_true ⟨[], rfl⟩ rfl
  · refine iff_of_false ?_ hfields
    rw [encode_assoc hfields, Option.map_eq_some_iff] at h
    obtain ⟨members, -, rfl⟩ := h
    rintro ⟨entries, hentries⟩
    rw [jsonDecode] at hentries
    split at hentries
    · rw [decode] at hentries
      exact absurd hentries (by simp)
    · exact absurd hentries (by simp)

end Php
