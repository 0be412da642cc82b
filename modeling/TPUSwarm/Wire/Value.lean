import TPUSwarm.Dynamic

/-!
# Python values on their way to the wire

The encoder walks over any value: records, enumeration members, mappings and sequences. A
mapping keeps its entries in the order in which they were written, and a record is the name
of its class with its fields in the order of their declaration.
-/

namespace TPUSwarm

open Common

/-- `ConsistencyMode.value`. -/
def ConsistencyMode.value : ConsistencyMode → String
  | allAtBarrier => "ALL_AT_BARRIER"
  | independent => "INDEPENDENT"

/-- `WorkflowStatus.value`. -/
def WorkflowStatus.value : WorkflowStatus → String
  | active => "ACTIVE"
  | succeeded => "SUCCEEDED"
  | failed => "FAILED"
  | cancelled => "CANCELLED"

/-- A member of an enumeration of the control plane. -/
inductive EnumMember
  | priority (p : Priority)
  | taskStatus (s : TaskStatus)
  | consistencyMode (m : ConsistencyMode)
  | workflowStatus (s : WorkflowStatus)
deriving DecidableEq

/-- A Python value. -/
inductive PyValue
  | none
  | bool (b : Bool)
  | int (n : ℤ)
  | float (x : ℚ)
  | inf (negative : Bool)
  | str (s : String)
  | enum (member : EnumMember)
  | list (items : List PyValue)
  | tuple (items : List PyValue)
  | dict (entries : List (String × PyValue))
  | dataclass (name : String) (fields : List (String × PyValue))

/-- `member.value`. -/
def EnumMember.value : EnumMember → PyValue
  | priority p => .int p.toInt
  | taskStatus s => .str s.value
  | consistencyMode m => .str m.value
  | workflowStatus s => .str s.value

namespace PyValue

mutual
/-- `dataclasses.asdict` and its recursion: records become mappings, other values are copied. -/
def asdict : PyValue → PyValue
  | .list items => .list (asdictItems items)
  | .tuple items => .tuple (asdictItems items)
  | .dict entries => .dict (asdictEntries entries)
  | .dataclass _ fields => .dict (asdictEntries fields)
  | value => value

/-- The recursion of `asdict` into the elements of a sequence. -/
def asdictItems : List PyValue → List PyValue
  | [] => []
  | item :: rest => asdict item :: asdictItems rest

/-- The recursion of `asdict` into the values of a mapping or a record. -/
def asdictEntries : List (String × PyValue) → List (String × PyValue)
  | [] => []
  | (key, item) :: rest => (key, asdict item) :: asdictEntries rest
end

mutual
/-- The number of nodes, where a record counts for one more than the mapping it becomes. -/
def weight : PyValue → ℕ
  | .list items => 1 + weightItems items
  | .tuple items => 1 + weightItems items
  | .dict entries => 1 + weightEntries entries
  | .dataclass _ fields => 2 + weightEntries fields
  | _ => 1

/-- The nodes of the elements of a sequence. -/
def weightItems : List PyValue → ℕ
  | [] => 0
  | item :: rest => weight item + weightItems rest

/-- The nodes of the values of a mapping or a record. -/
def weightEntries : List (String × PyValue) → ℕ
  | [] => 0
  | (_, item) :: rest => weight item + weightEntries rest
end

mutual
/-- Making mappings of records never adds weight. -/
theorem weight_asdict_le : (value : PyValue) → weight (asdict value) ≤ weight value
  | .none | .bool _ | .int _ | .float _ | .inf _ | .str _ | .enum _ => le_rfl
  | .list items | .tuple items => Nat.add_le_add_left (weightItems_asdict_le items) 1
  | .dict entries => Nat.add_le_add_left (weightEntries_asdict_le entries) 1
  | .dataclass _ fields => Nat.add_le_add (by decide) (weightEntries_asdict_le fields)

/-- Making mappings of the records among items never adds weight. -/
theorem weightItems_asdict_le : (items : List PyValue) → weightItems (asdictItems items) ≤ weightItems items
  | [] => le_rfl
  | item :: rest => Nat.add_le_add (weight_asdict_le item) (weightItems_asdict_le rest)

/-- Making mappings of the records among entries never adds weight. -/
theorem weightEntries_asdict_le : (entries : List (String × PyValue)) →
    weightEntries (asdictEntries entries) ≤ weightEntries entries
  | [] => le_rfl
  | (_, item) :: rest => Nat.add_le_add (weight_asdict_le item) (weightEntries_asdict_le rest)
end

/-- A record weighs more than the mapping it becomes. -/
theorem weight_asdict_lt (name : String) (fields : List (String × PyValue)) :
    weight (asdict (.dataclass name fields)) < weight (.dataclass name fields) := by
  have hle := weightEntries_asdict_le fields
  simp only [asdict, weight]
  omega

/-- An item weighs no more than all items. -/
theorem weight_le_of_mem {item : PyValue} {items : List PyValue} (hmem : item ∈ items) :
    weight item ≤ weightItems items := by
  induction items with
  | nil => simp at hmem
  | cons first rest ih =>
    simp only [weightItems]
    rcases List.mem_cons.mp hmem with rfl | hrest
    · omega
    · have hle := ih hrest
      omega

/-- A value weighs no more than all entries. -/
theorem weight_le_of_mem_entries {entry : String × PyValue} {entries : List (String × PyValue)}
    (hmem : entry ∈ entries) : weight entry.2 ≤ weightEntries entries := by
  induction entries with
  | nil => simp at hmem
  | cons first rest ih =>
    simp only [weightEntries]
    rcases List.mem_cons.mp hmem with rfl | hrest
    · omega
    · have hle := ih hrest
      omega

/-- `to_jsonable`. -/
def toJsonable : PyValue → PyValue
  | .dataclass name fields => toJsonable (asdict (.dataclass name fields))
  | .enum member => member.value
  | .dict entries => .dict (entries.attach.map fun entry => (entry.1.1, toJsonable entry.1.2))
  | .list items => .list (items.attach.map fun item => toJsonable item.1)
  | .tuple items => .list (items.attach.map fun item => toJsonable item.1)
  | .none => .none
  | .bool b => .bool b
  | .int n => .int n
  | .float x => .float x
  | .inf negative => .inf negative
  | .str s => .str s
termination_by value => weight value
decreasing_by
  · exact weight_asdict_lt name fields
  · have hle := weight_le_of_mem_entries entry.2
    simp only [weight]
    omega
  · have hle := weight_le_of_mem item.2
    simp only [weight]
    omega
  · have hle := weight_le_of_mem item.2
    simp only [weight]
    omega

/-- `to_jsonable` case by case, its recursion through a container being a plain map. -/
theorem toJsonable_eq (value : PyValue) : toJsonable value =
    match value with
    | .dataclass name fields => toJsonable (asdict (.dataclass name fields))
    | .enum member => member.value
    | .dict entries => .dict (entries.map fun entry => (entry.1, toJsonable entry.2))
    | .list items | .tuple items => .list (items.map toJsonable)
    | scalar => scalar := by
  cases value with
  | list items | tuple items => rw [toJsonable, List.map_attach_eq_pmap, List.pmap_eq_map]
  | dict entries =>
    rw [toJsonable, List.map_attach_eq_pmap]
    show PyValue.dict (entries.pmap (fun entry _ => (entry.1, toJsonable entry.2)) _) = _
    rw [List.pmap_eq_map]
  | _ => rw [toJsonable]

/-- `None` is JSON data. -/
@[simp] theorem toJsonable_none : toJsonable .none = .none :=
  toJsonable_eq .none

/-- A boolean is JSON data. -/
@[simp] theorem toJsonable_bool (b : Bool) : toJsonable (.bool b) = .bool b :=
  toJsonable_eq (.bool b)

/-- An integer is JSON data. -/
@[simp] theorem toJsonable_int (n : ℤ) : toJsonable (.int n) = .int n :=
  toJsonable_eq (.int n)

/-- A float is JSON data. -/
@[simp] theorem toJsonable_float (x : ℚ) : toJsonable (.float x) = .float x :=
  toJsonable_eq (.float x)

/-- An infinity is JSON data. -/
@[simp] theorem toJsonable_inf (negative : Bool) : toJsonable (.inf negative) = .inf negative :=
  toJsonable_eq (.inf negative)

/-- A text is JSON data. -/
@[simp] theorem toJsonable_str (s : String) : toJsonable (.str s) = .str s :=
  toJsonable_eq (.str s)

/-- A member of an enumeration goes to the wire as its value. -/
@[simp] theorem toJsonable_enum (member : EnumMember) : toJsonable (.enum member) = member.value :=
  toJsonable_eq (.enum member)

/-- A list goes to the wire item by item. -/
@[simp] theorem toJsonable_list (items : List PyValue) :
    toJsonable (.list items) = .list (items.map toJsonable) :=
  toJsonable_eq (.list items)

/-- A tuple goes to the wire as a list. -/
@[simp] theorem toJsonable_tuple (items : List PyValue) :
    toJsonable (.tuple items) = .list (items.map toJsonable) :=
  toJsonable_eq (.tuple items)

/-- A mapping goes to the wire entry by entry. -/
@[simp] theorem toJsonable_dict (entries : List (String × PyValue)) :
    toJsonable (.dict entries) = .dict (entries.map fun entry => (entry.1, toJsonable entry.2)) :=
  toJsonable_eq (.dict entries)

/-- The recursion of `asdict` into a record goes through its fields. -/
theorem asdictEntries_eq_map (fields : List (String × PyValue)) :
    asdictEntries fields = fields.map fun field => (field.1, asdict field.2) := by
  induction fields with
  | nil => rfl
  | cons field rest ih => simp [asdictEntries, ih]

/-- A record goes to the wire field by field. -/
@[simp] theorem toJsonable_dataclass (name : String) (fields : List (String × PyValue)) :
    toJsonable (.dataclass name fields) =
      .dict (fields.map fun field => (field.1, toJsonable (asdict field.2))) := by
  rw [toJsonable_eq]
  simp only [asdict, toJsonable_dict, asdictEntries_eq_map, List.map_map]
  rfl

end PyValue

namespace JsonTree

mutual
/-- The Python value that `json.loads` makes of a syntax tree. -/
def toPy : JsonTree → PyValue
  | .null => .none
  | .bool b => .bool b
  | .int n => .int n
  | .float x => .float x
  | .inf negative => .inf negative
  | .str s => .str s
  | .arr items => .list (toPyItems items)
  | .obj entries => .dict (toPyEntries entries)

/-- The elements of an array as Python values. -/
def toPyItems : List JsonTree → List PyValue
  | [] => []
  | item :: rest => toPy item :: toPyItems rest

/-- The entries of an object as Python values. -/
def toPyEntries : List (String × JsonTree) → List (String × PyValue)
  | [] => []
  | (key, item) :: rest => (key, toPy item) :: toPyEntries rest
end

mutual
/-- There is no record in JSON data, so `asdict` copies it. -/
@[simp] theorem asdict_toPy : (t : JsonTree) → t.toPy.asdict = t.toPy
  | .null | .bool _ | .int _ | .float _ | .inf _ | .str _ => rfl
  | .arr items => congrArg PyValue.list (asdictItems_toPy items)
  | .obj entries => congrArg PyValue.dict (asdictEntries_toPy entries)

/-- `asdict` copies items of JSON data. -/
theorem asdictItems_toPy : (items : List JsonTree) →
    PyValue.asdictItems (toPyItems items) = toPyItems items
  | [] => rfl
  | item :: rest => congrArg₂ List.cons (asdict_toPy item) (asdictItems_toPy rest)

/-- `asdict` copies entries of JSON data. -/
theorem asdictEntries_toPy : (entries : List (String × JsonTree)) →
    PyValue.asdictEntries (toPyEntries entries) = toPyEntries entries
  | [] => rfl
  | (key, item) :: rest =>
    congrArg₂ List.cons (congrArg (Prod.mk key) (asdict_toPy item)) (asdictEntries_toPy rest)
end

mutual
/-- `to_jsonable` leaves JSON data of any depth as it is. -/
@[simp] theorem toJsonable_toPy : (t : JsonTree) → t.toPy.toJsonable = t.toPy
  | .null => PyValue.toJsonable_none
  | .bool b => PyValue.toJsonable_bool b
  | .int n => PyValue.toJsonable_int n
  | .float x => PyValue.toJsonable_float x
  | .inf negative => PyValue.toJsonable_inf negative
  | .str s => PyValue.toJsonable_str s
  | .arr items => (PyValue.toJsonable_list _).trans (congrArg PyValue.list (toJsonableItems_toPy items))
  | .obj entries => (PyValue.toJsonable_dict _).trans (congrArg PyValue.dict (toJsonableEntries_toPy entries))

/-- `to_jsonable` leaves items of JSON data as they are. -/
theorem toJsonableItems_toPy : (items : List JsonTree) →
    (toPyItems items).map PyValue.toJsonable = toPyItems items
  | [] => rfl
  | item :: rest => congrArg₂ List.cons (toJsonable_toPy item) (toJsonableItems_toPy rest)

/-- `to_jsonable` leaves entries of JSON data as they are. -/
theorem toJsonableEntries_toPy : (entries : List (String × JsonTree)) →
    (toPyEntries entries).map (fun entry => (entry.1, entry.2.toJsonable)) = toPyEntries entries
  | [] => rfl
  | (key, item) :: rest =>
    congrArg₂ List.cons (congrArg (Prod.mk key) (toJsonable_toPy item)) (toJsonableEntries_toPy rest)
end

end JsonTree

end TPUSwarm
