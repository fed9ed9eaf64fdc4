import OpenMetrics.Library.HashOrder

namespace OpenMetrics.Library

inductive Data where
  | null
  | bool (b : Bool)
  | number (literal : String)
  | string (s : String)
  | array (items : List Data)
  | object (fields : List (String × Data))

namespace Data

inductive Kind where
  | string | array | object
  deriving DecidableEq

def kind : Data → Option Kind
  | .string _ => some .string
  | .array _ => some .array
  | .object _ => some .object
  | .null | .bool _ | .number _ => none

def field (name : String) (fields : List (String × Data)) : List Data :=
  (fields.filter fun entry => entry.1 = name).map Prod.snd

section
variable {α : Type} (read : Data → Option α)

def nullable : Data → Option (Option α)
  | .null => some none
  | v => (read v).map some

variable (name : String) (fields : List (String × Data))

def required : Option α :=
  match field name fields with
  | [v] => read v
  | _ => none

def optional : Option (Option α) :=
  match field name fields with
  | [] => some none
  | [v] => nullable read v
  | _ => none

def withDefault (default : α) : Option α :=
  match field name fields with
  | [] => some default
  | [v] => read v
  | _ => none

end

def entries : Data → List (String × Data)
  | .object fields => fields
  | _ => []

def items : Data → List Data
  | .array l => l
  | _ => []

def readString : Data → Option String
  | .string s => some s
  | _ => none

def readList {α : Type} (read : Data → Option α) : Data → Option (List α)
  | .array l => l.mapM read
  | _ => none

def readStrings : Data → Option (HashMap String String)
  | .object fields => fields.foldlM (fun m entry => (readString entry.2).map (m.insert entry.1)) ∅
  | _ => none

@[simp] theorem readString_string (s : String) : readString (.string s) = some s := rfl

def writeStrings (order : HashOrder String) (m : HashMap String String) : Data :=
  .object ((order.iter m).map fun entry => (entry.1, .string entry.2))

def writeOptional {α : Type} (name : String) (write : α → Data) : Option α → List (String × Data)
  | some a => [(name, write a)]
  | none => []

def writeNonEmpty {α : Type} (name : String) (write : α → Data) :
    List α → List (String × Data)
  | [] => []
  | l => [(name, .array (l.map write))]

@[simp] theorem field_nil (name : String) : field name [] = [] := rfl

@[simp] theorem field_cons (name name' : String) (v : Data) (fields : List (String × Data)) :
    field name ((name', v) :: fields) =
      if name' = name then v :: field name fields else field name fields := by
  by_cases same : name' = name <;> simp [field, same]

@[simp] theorem field_append (name : String) (fields more : List (String × Data)) :
    field name (fields ++ more) = field name fields ++ field name more := by
  simp [field]

section
variable {α : Type} {read : Data → Option α} {write : α → Data}

@[simp] theorem field_writeOptional (name name' : String) (a : Option α) :
    field name (writeOptional name' write a) =
      if name' = name then (a.map write).toList else [] := by
  cases a <;> simp [writeOptional]

@[simp] theorem field_writeNonEmpty (name name' : String) (l : List α) :
    field name (writeNonEmpty name' write l) =
      if name' = name ∧ l ≠ [] then [.array (l.map write)] else [] := by
  cases l <;> simp [writeNonEmpty]

variable (reads : ∀ a, read (write a) = some a)
include reads

theorem required_written {name : String} {fields : List (String × Data)} {a : α}
    (written : field name fields = [write a]) : required read name fields = some a := by
  rw [required, written]
  exact reads a

theorem optional_written (present : ∀ a, write a ≠ .null) {name : String}
    {fields : List (String × Data)} {a : Option α}
    (written : field name fields = (a.map write).toList) :
    optional read name fields = some a := by
  rw [optional, written]
  cases a with
  | none => rfl
  | some a =>
      have back := reads a
      rw [Option.map_some, Option.toList_some]
      cases wrote : write a with
      | null => exact absurd wrote (present a)
      | _ =>
          rw [wrote] at back
          exact congrArg (Option.map some) back

theorem readList_written (l : List α) : readList read (.array (l.map write)) = some l := by
  rw [readList]
  induction l with
  | nil => rfl
  | cons a rest ih => rw [List.map_cons, List.mapM_cons, reads, ih]; rfl

theorem withDefault_written {name : String} {fields : List (String × Data)} {l : List α}
    (written : field name fields = if l ≠ [] then [.array (l.map write)] else []) :
    withDefault (readList read) name fields [] = some l := by
  rw [withDefault, written]
  cases l with
  | nil => rfl
  | cons a rest => exact readList_written reads (a :: rest)

end

theorem readStrings_written (order : HashOrder String) (m : HashMap String String) :
    readStrings (writeStrings order m) = some m := by
  have loop (l : List (String × String)) (m₀ : HashMap String String) :
      (l.map fun entry => (entry.1, Data.string entry.2)).foldlM (fun m entry =>
        (readString entry.2).map (m.insert entry.1)) m₀ =
        some (l.foldl (fun m entry => m.insert entry.1 entry.2) m₀) := by
    induction l generalizing m₀ with
    | nil => rfl
    | cons entry rest ih =>
        rw [List.map_cons, List.foldlM_cons, List.foldl_cons, ← ih]
        rfl
  rw [writeStrings, readStrings, loop, Option.some.injEq]
  refine Finmap.ext_lookup fun k => ?_
  refine (order.lookup_merge_all (fun _ v => v) m (∅ : HashMap String String) k).trans ?_
  cases m.lookup k <;> simp

def Texts (v : Data) : Prop := ∀ entry ∈ v.entries, entry.2.kind = some .string

def IsRecord (v : Data) : Prop := ∃ fields, v = .object fields ∧ (fields.map Prod.fst).Nodup

theorem field_of_nodup (name : String) {fields : List (String × Data)}
    (nodup : (fields.map Prod.fst).Nodup) :
    field name fields = [] ∨ ∃ v, field name fields = [v] := by
  induction fields with
  | nil => exact Or.inl rfl
  | cons entry rest ih =>
      obtain ⟨apart, nodup'⟩ := List.nodup_cons.mp nodup
      obtain ⟨name', v⟩ := entry
      rw [field_cons]
      split_ifs with same
      · subst same
        have others : field name' rest = [] := by
          rw [field, List.map_eq_nil_iff, List.filter_eq_nil_iff]
          intro entry member same
          have given := List.mem_map_of_mem (f := Prod.fst) member
          exact apart (of_decide_eq_true same ▸ given)
        exact Or.inr ⟨v, by rw [others]⟩
      · exact ih nodup'

section
variable {α : Type} {read : Data → Option α} {name : String} {fields : List (String × Data)}
  (nodup : (fields.map Prod.fst).Nodup)
include nodup

theorem required_isSome : (required read name fields).isSome ↔
    field name fields ≠ [] ∧ ∀ v ∈ field name fields, (read v).isSome := by
  rw [required]
  rcases field_of_nodup name nodup with absent | ⟨v, given⟩
  · simp [absent]
  · simp [given]

theorem optional_isSome : (optional read name fields).isSome ↔
    ∀ v ∈ field name fields, (nullable read v).isSome := by
  rw [optional]
  rcases field_of_nodup name nodup with absent | ⟨v, given⟩
  · simp [absent]
  · simp [given]

theorem withDefault_isSome (default : α) : (withDefault read name fields default).isSome ↔
    ∀ v ∈ field name fields, (read v).isSome := by
  rw [withDefault]
  rcases field_of_nodup name nodup with absent | ⟨v, given⟩
  · simp [absent]
  · simp [given]

end

theorem isSome_bind_iff {α β : Type} {x : Option α} {f : α → Option β} {P : Prop}
    (rest : ∀ a, (f a).isSome ↔ P) : (x >>= f).isSome ↔ x.isSome ∧ P := by
  cases x with
  | none => simp
  | some a => simpa using rest a

theorem nullable_isSome {α : Type} {read : Data → Option α} {v : Data} :
    (nullable read v).isSome ↔ v = .null ∨ (read v).isSome := by
  cases v <;> simp [nullable]

theorem readString_isSome {v : Data} : (readString v).isSome ↔ v.kind = some .string := by
  cases v <;> simp [readString, kind]

theorem isSome_mapM {α β : Type} (f : α → Option β) (l : List α) :
    (l.mapM f).isSome ↔ ∀ a ∈ l, (f a).isSome := by
  induction l with
  | nil => simp
  | cons a rest ih =>
      rw [List.forall_mem_cons, ← ih, List.mapM_cons]
      cases f a <;> cases rest.mapM f <;> simp

theorem readList_isSome {α : Type} {read : Data → Option α} {l : List Data} :
    (readList read (.array l)).isSome ↔ ∀ item ∈ l, (read item).isSome :=
  isSome_mapM read l

theorem readList_isSome_iff {α : Type} {read : Data → Option α} {l : List Data}
    (lists : ∀ v ∈ l, ∃ l', v = .array l') :
    (∀ v ∈ l, (readList read v).isSome) ↔ ∀ item ∈ l.flatMap items, (read item).isSome := by
  rw [List.forall_mem_flatMap]
  refine forall₂_congr fun v member => ?_
  obtain ⟨l', rfl⟩ := lists v member
  exact readList_isSome

theorem readStrings_isSome {fields : List (String × Data)} :
    (readStrings (.object fields)).isSome ↔ ∀ entry ∈ fields, (readString entry.2).isSome := by
  have loop (m : HashMap String String) : (fields.foldlM (fun m entry =>
      (readString entry.2).map (m.insert entry.1)) m).isSome ↔
        ∀ entry ∈ fields, (readString entry.2).isSome := by
    induction fields generalizing m with
    | nil => simp
    | cons entry rest ih =>
        rw [List.forall_mem_cons, List.foldlM_cons]
        cases readString entry.2 with
        | none => simp
        | some s => simpa using ih (m.insert entry.1 s)
  exact loop ∅

theorem nullable_string {v : Data} (typed : v.kind = some .string) :
    (nullable readString v).isSome :=
  nullable_isSome.mpr (Or.inr (readString_isSome.mpr typed))

theorem nullable_strings {v : Data} (typed : v.kind = some .object) :
    (nullable readStrings v).isSome ↔ v.Texts := by
  cases v with
  | object fields =>
      rw [nullable_isSome, readStrings_isSome]
      simp [Texts, entries, readString_isSome]
  | _ => cases typed

end Data

inductive Schema where
  | mk (type : Option Data.Kind) (properties : List (String × Schema)) (required : List String)
      (items : Option Schema)

namespace Schema

mutual

def accepts : Schema → Data → Bool
  | .mk type properties required items, v =>
      type.all (fun kind => v.kind = some kind) && match v with
        | .object fields => (required.all fun name => Data.field name fields ≠ []) &&
            acceptsProperties properties fields
        | .array l => acceptsItems items l
        | .null | .bool _ | .number _ | .string _ => true

def acceptsProperties : List (String × Schema) → List (String × Data) → Bool
  | [], _ => true
  | (name, schema) :: rest, fields =>
      (Data.field name fields).all (fun v => schema.accepts v) && acceptsProperties rest fields

def acceptsItems : Option Schema → List Data → Bool
  | none, _ => true
  | some schema, l => l.all fun v => schema.accepts v

end

def typed (kind : Data.Kind) : Schema := .mk (some kind) [] [] none

def listOf (schema : Schema) : Schema := .mk (some .array) [] [] (some schema)

variable {v : Data}

@[simp] theorem accepts_typed (kind : Data.Kind) :
    (typed kind).accepts v = true ↔ v.kind = some kind := by
  cases v <;> simp [typed, accepts, acceptsProperties, acceptsItems, Data.kind]

@[simp] theorem accepts_listOf (schema : Schema) :
    (listOf schema).accepts v = true ↔ ∃ l, v = .array l ∧ ∀ item ∈ l, schema.accepts item := by
  cases v <;> simp [listOf, accepts, acceptsItems, Data.kind]

theorem acceptsProperties_iff {properties : List (String × Schema)}
    {fields : List (String × Data)} : acceptsProperties properties fields = true ↔
      ∀ property ∈ properties, ∀ v ∈ Data.field property.1 fields, property.2.accepts v := by
  induction properties with
  | nil => simp [acceptsProperties]
  | cons property rest ih =>
      obtain ⟨name, schema⟩ := property
      simp [acceptsProperties, ih]

theorem accepts_object {properties : List (String × Schema)} {required : List String}
    {fields : List (String × Data)} :
    (Schema.mk none properties required none).accepts (.object fields) = true ↔
      (∀ name ∈ required, Data.field name fields ≠ []) ∧
        ∀ property ∈ properties, ∀ v ∈ Data.field property.1 fields, property.2.accepts v := by
  simp [accepts, acceptsProperties_iff]

theorem accepts_items {properties : List (String × Schema)} {required : List String}
    {fields : List (String × Data)} {name : String} {schema : Schema}
    (accepted : (Schema.mk none properties required none).accepts (.object fields))
    (listed : (name, listOf schema) ∈ properties) :
    ∀ item ∈ (Data.field name fields).flatMap Data.items, schema.accepts item := by
  rw [List.forall_mem_flatMap]
  intro v member
  have acceptedList := (accepts_object.mp accepted).2 _ listed v member
  obtain ⟨l, rfl, each⟩ := (accepts_listOf schema).mp acceptedList
  exact each

end Schema

end OpenMetrics.Library
