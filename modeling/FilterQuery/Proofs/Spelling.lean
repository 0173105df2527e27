import FilterQuery.Document
import Mathlib.Data.List.Forall2

/-!
# Spellings in JSON

What value a JSON scalar spells, and what document JSON of any depth describes, as relations that
know nothing of how it is read. Main statement: a value that has a spelling is read back from it
with its kind, by the reader of values, which tries one kind after another, and by the reader of
documents, which converts numbers step by step; on every scalar the two give the same value; and a
document is read with all items and keys in their order.

Integers are where the two readers could part. One that fits sixty-four signed bits stays an
integer, and from there on it is rounded to a double; a number that was not written as an integer is
a double even if it is whole.
-/

namespace FilterQuery

namespace Json

inductive Spells : Json → Value → Prop
  | null : Spells .null .null
  | bool (b : Bool) : Spells (.bool b) (.bool b)
  | int (i : Int64) : Spells (.int i.toInt) (.int i)
  | large {i : Int} : i < Int64.minValue.toInt ∨ Int64.maxValue.toInt < i →
    Spells (.int i) (.float (.ofInt i))
  | float (x : Binary64) : Spells (.float x) (.float x)
  | text (s : String) : Spells (.text s) (.text s)

/-- Items keep their places, and so do members, whose names become keys. -/
inductive Describes : Json → Document → Prop
  | scalar {json : Json} {value : Value} : json.Spells value → Describes json (.scalar value)
  | array {items : List Json} {documents : List Document} : List.Forall₂ Describes items documents →
    Describes (.array items) (.list documents)
  | object {members : List (String × Json)} {entries : List (Key × Document)} :
    entries.map Prod.fst = members.map (fun member => .name member.1) →
    List.Forall₂ Describes (members.map Prod.snd) (entries.map Prod.snd) →
    Describes (.object members) (.map entries)

def isScalar : Json → Bool
  | .array _ | .object _ => false
  | _ => true

variable {json : Json} {value : Value}

/-! ### Numbers -/

/-- Every signed word is written as an integer and read as the same one. -/
theorem int64?_toInt (i : Int64) : (Json.int i.toInt).int64? = some i := by
  rw [int64?, if_pos ⟨i.minValue_le_toInt, i.toInt_le⟩, Int64.ofInt_toInt]

theorem int64?_of_large {i : Int} (h : i < Int64.minValue.toInt ∨ Int64.maxValue.toInt < i) :
    (Json.int i).int64? = none := by
  rw [int64?, if_neg (by omega)]

/-- An integer fits a signed word or lies beyond one of its ends. -/
theorem fits_or_large (i : Int) :
    (∃ k : Int64, k.toInt = i) ∨ i < Int64.minValue.toInt ∨ Int64.maxValue.toInt < i := by
  by_cases fits : Int64.minValue.toInt ≤ i ∧ i ≤ Int64.maxValue.toInt
  · have high : i < Int64.maxValue.toInt + 1 := by omega
    exact .inl ⟨.ofInt i, Int64.toInt_ofInt_of_le fits.1 high⟩
  · exact .inr (by omega)

/-- Every scalar of JSON spells a value. -/
theorem exists_spells (h : json.isScalar) : ∃ value, json.Spells value := by
  cases json with
  | null => exact ⟨_, .null⟩
  | bool b => exact ⟨_, .bool b⟩
  | int i =>
    rcases fits_or_large i with ⟨k, rfl⟩ | large
    · exact ⟨_, .int k⟩
    · exact ⟨_, .large large⟩
  | float x => exact ⟨_, .float x⟩
  | text s => exact ⟨_, .text s⟩
  | array | object => cases h

/-! ### The readers -/

/-- Kind after kind is tried, and the value that is spelled is found. -/
theorem Spells.ofJson? (h : json.Spells value) : Value.ofJson? json = some value := by
  cases h with
  | int i => simp [Value.ofJson?, Value.Kind.read?, int64?_toInt]
  | large large => simp [Value.ofJson?, Value.Kind.read?, int64?_of_large large, double?]
  | _ => rfl

/-- Converted step by step, a number is the value that is spelled, too. -/
theorem Spells.ofJson (h : json.Spells value) : Document.ofJson json = .scalar value := by
  cases h with
  | int i => rw [Document.ofJson, Value.ofNumber, int64?_toInt]
  | large large =>
    rw [Document.ofJson, Value.ofNumber, int64?_of_large large]
    rfl
  | _ => rfl

theorem ofJson?_of_not_isScalar (h : json.isScalar = false) : Value.ofJson? json = none := by
  cases json with
  | array | object => rfl
  | _ => cases h

/-- What is read as a value spells it, and conversely. -/
theorem ofJson?_eq_some : Value.ofJson? json = some value ↔ json.Spells value := by
  refine ⟨fun h => ?_, Spells.ofJson?⟩
  cases scalar : json.isScalar with
  | true =>
    obtain ⟨spelled, hs⟩ := exists_spells scalar
    rw [hs.ofJson?] at h
    exact Option.some.inj h ▸ hs
  | false =>
    rw [ofJson?_of_not_isScalar scalar] at h
    cases h

/-- Only an infinity or a NaN is written as something that it is not. -/
theorem spells_toJson (spelled : ∀ x, value = .float x → x.isFinite) :
    value.toJson.Spells value := by
  cases value with
  | null => exact .null
  | bool b => exact .bool b
  | int i => exact .int i
  | float x =>
    rw [Value.toJson, ofFloat, if_pos (spelled x rfl)]
    exact .float x
  | text s => exact .text s

/-! ### Documents -/

/-- The names of an object become keys in their order. -/
theorem names_ofJsonMembers (members : List (String × Json)) :
    (Document.ofJsonMembers members).map Prod.fst =
      members.map fun member => .name member.1 := by
  induction members with
  | nil => rfl
  | cons member rest ih => rw [Document.ofJsonMembers, List.map_cons, List.map_cons, ih]

theorem describes_of_isScalar (h : json.isScalar) : json.Describes (Document.ofJson json) := by
  obtain ⟨value, spelled⟩ := exists_spells h
  rw [spelled.ofJson]
  exact .scalar spelled

mutual

/-- Whatever is read as a document describes it. -/
theorem describes_ofJson (json : Json) : json.Describes (Document.ofJson json) := by
  cases json with
  | array items => exact .array (describes_ofJsonItems items)
  | object members => exact .object (names_ofJsonMembers members) (describes_ofJsonMembers members)
  | _ => exact describes_of_isScalar rfl

theorem describes_ofJsonItems (items : List Json) :
    List.Forall₂ Describes items (Document.ofJsonItems items) := by
  cases items with
  | nil => exact .nil
  | cons item rest => exact .cons (describes_ofJson item) (describes_ofJsonItems rest)

theorem describes_ofJsonMembers (members : List (String × Json)) :
    List.Forall₂ Describes (members.map Prod.snd)
      ((Document.ofJsonMembers members).map Prod.snd) := by
  cases members with
  | nil => exact .nil
  | cons member rest => exact .cons (describes_ofJson member.2) (describes_ofJsonMembers rest)

end

mutual

/-- JSON describes no other document than the one that is read. -/
theorem ofJson_of_describes {json : Json} {document : Document} (h : json.Describes document) :
    Document.ofJson json = document := by
  cases h with
  | scalar spelled => exact spelled.ofJson
  | array each => rw [Document.ofJson, ofJsonItems_of_describes each]
  | object names each => rw [Document.ofJson, ofJsonMembers_of_describes names each]

theorem ofJsonItems_of_describes {items : List Json} {documents : List Document}
    (each : List.Forall₂ Describes items documents) : Document.ofJsonItems items = documents := by
  cases each with
  | nil => rfl
  | cons here later =>
    rw [Document.ofJsonItems, ofJson_of_describes here, ofJsonItems_of_describes later]

theorem ofJsonMembers_of_describes {members : List (String × Json)}
    {entries : List (Key × Document)}
    (names : entries.map Prod.fst = members.map fun member => .name member.1)
    (each : List.Forall₂ Describes (members.map Prod.snd) (entries.map Prod.snd)) :
    Document.ofJsonMembers members = entries := by
  cases members with
  | nil => rw [List.map_eq_nil_iff.mp names, Document.ofJsonMembers]
  | cons member rest =>
    obtain ⟨name, item⟩ := member
    obtain ⟨⟨key, document⟩, later, rfl, same, namesLater⟩ := List.map_eq_cons_iff.mp names
    obtain ⟨here, eachLater⟩ := List.forall₂_cons.mp each
    obtain rfl : key = .name name := same
    rw [Document.ofJsonMembers, ofJson_of_describes here,
      ofJsonMembers_of_describes namesLater eachLater]

end

/-- Values and documents are read from their JSON spellings with nothing lost or confused. -/
theorem readers_of_json_agree :
    (∀ value : Value, (∀ x, value = .float x → x.isFinite) →
      Value.ofJson? value.toJson = some value ∧
        Document.ofJson value.toJson = .scalar value) ∧
    (∀ json : Json, json.isScalar → ∃ value, json.Spells value ∧
      Value.ofJson? json = some value ∧ Document.ofJson json = .scalar value) ∧
    (∀ (json : Json) (value : Value), Value.ofJson? json = some value ↔ json.Spells value) ∧
    (∀ (json : Json) (document : Document),
      Document.ofJson json = document ↔ json.Describes document) := by
  refine ⟨?_, ?_, ?_, ?_⟩
  · intro value spelled
    have spells := spells_toJson spelled
    exact ⟨spells.ofJson?, spells.ofJson⟩
  · intro json scalar
    obtain ⟨value, spells⟩ := exists_spells scalar
    exact ⟨value, spells, spells.ofJson?, spells.ofJson⟩
  · intro json value
    exact ofJson?_eq_some
  · intro json document
    refine ⟨?_, ofJson_of_describes⟩
    rintro rfl
    exact describes_ofJson json

/-- A whole double is not read as an integer, and the greatest integer of JSON becomes the double
beside it. -/
theorem readers_of_json_agree_sample :
    let two : Value := .float ⟨0x4000000000000000⟩
    let large : Json := .int 18446744073709551615
    let json : Json :=
      .object [("zeta", .int 1), ("alpha", .array [.text ">", .float ⟨0x4004000000000000⟩]),
        ("mid", .null)]
    (∀ x, two = .float x → x.isFinite) ∧
      Value.ofJson? two.toJson = some two ∧ Document.ofJson two.toJson = .scalar two ∧
      large.isScalar ∧ large.Spells (.float ⟨0x43F0000000000000⟩) ∧
      Value.ofJson? large = some (.float ⟨0x43F0000000000000⟩) ∧
      Document.ofJson large = .scalar (.float ⟨0x43F0000000000000⟩) ∧
      json.Describes (.map [(.name "zeta", .scalar (.int 1)),
        (.name "alpha",
          .list [.scalar (.text ">"), .scalar (.float ⟨0x4004000000000000⟩)]),
        (.name "mid", .scalar .null)]) := by
  intro two large json
  obtain ⟨kept, agree, -, described⟩ := readers_of_json_agree
  have finite : ∀ x, two = .float x → x.isFinite := by
    intro x same
    obtain rfl := Value.float.inj same
    rfl
  obtain ⟨back, document⟩ := kept two finite
  obtain ⟨value, spells, read, scalar⟩ := agree large rfl
  have rounded : Value.ofJson? large = some (.float ⟨0x43F0000000000000⟩) := by decide +kernel
  obtain rfl : value = .float ⟨0x43F0000000000000⟩ := Option.some.inj (read.symm.trans rounded)
  exact ⟨finite, back, document, rfl, spells, read, scalar, (described _ _).mp rfl⟩

end Json

end FilterQuery
