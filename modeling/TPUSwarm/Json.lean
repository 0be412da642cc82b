import TPUSwarm.Common.Dict
import Mathlib.Data.Rat.Defs

/-!
# JSON values and the text columns that hold them

Payloads, metadata, states and results are JSON mappings. A JSON value is a syntax tree
whose objects list their keys in increasing order, so equality of values is equality of
mappings and does not depend on the order in which keys were written. `JsonText` is what
`json.dumps(value, sort_keys=True)` leaves in a text column: equal mappings have equal
texts, and `json.loads` gives the mapping back.
-/

namespace TPUSwarm

open Common

/-- JSON syntax. Integers and floats are kept apart, as `json.loads` does, which makes an infinity of a number that
is beyond all floats, such as `1e999`. Texts are Unicode texts; lone surrogates, and Python's `NaN`, which is not
JSON, are left out. -/
inductive JsonTree
  | null
  | bool (b : Bool)
  | int (n : ℤ)
  | float (x : ℚ)
  | inf (negative : Bool)
  | str (s : String)
  | arr (items : List JsonTree)
  | obj (entries : List (String × JsonTree))

namespace JsonTree

mutual
/-- Equality of syntax trees, decided constructor by constructor. -/
def decEq : (a b : JsonTree) → Decidable (a = b)
  | .null, .null => isTrue rfl
  | .bool a, .bool b => decidable_of_iff (a = b) (by simp)
  | .int a, .int b => decidable_of_iff (a = b) (by simp)
  | .float a, .float b => decidable_of_iff (a = b) (by simp)
  | .inf a, .inf b => decidable_of_iff (a = b) (by simp)
  | .str a, .str b => decidable_of_iff (a = b) (by simp)
  | .arr a, .arr b => match decEqItems a b with
    | isTrue h => isTrue (congrArg _ h)
    | isFalse h => isFalse fun e => h (JsonTree.arr.inj e)
  | .obj a, .obj b => match decEqEntries a b with
    | isTrue h => isTrue (congrArg _ h)
    | isFalse h => isFalse fun e => h (JsonTree.obj.inj e)
  | .null, .bool _ | .null, .int _ | .null, .float _ | .null, .str _ | .null, .arr _
  | .null, .obj _ | .bool _, .null | .bool _, .int _ | .bool _, .float _ | .bool _, .str _
  | .bool _, .arr _ | .bool _, .obj _ | .int _, .null | .int _, .bool _ | .int _, .float _
  | .int _, .str _ | .int _, .arr _ | .int _, .obj _ | .float _, .null | .float _, .bool _
  | .float _, .int _ | .float _, .str _ | .float _, .arr _ | .float _, .obj _ | .str _, .null
  | .str _, .bool _ | .str _, .int _ | .str _, .float _ | .str _, .arr _ | .str _, .obj _
  | .arr _, .null | .arr _, .bool _ | .arr _, .int _ | .arr _, .float _ | .arr _, .str _
  | .arr _, .obj _ | .obj _, .null | .obj _, .bool _ | .obj _, .int _ | .obj _, .float _
  | .obj _, .str _ | .obj _, .arr _ | .inf _, .null | .inf _, .bool _ | .inf _, .int _
  | .inf _, .float _ | .inf _, .str _ | .inf _, .arr _ | .inf _, .obj _ | .null, .inf _
  | .bool _, .inf _ | .int _, .inf _ | .float _, .inf _ | .str _, .inf _ | .arr _, .inf _
  | .obj _, .inf _ => isFalse (by simp)

/-- Equality of array items. -/
def decEqItems : (a b : List JsonTree) → Decidable (a = b)
  | [], [] => isTrue rfl
  | [], _ :: _ | _ :: _, [] => isFalse (by simp)
  | x :: xs, y :: ys => match decEq x y, decEqItems xs ys with
    | isTrue h, isTrue hs => isTrue (by rw [h, hs])
    | isFalse h, _ => isFalse fun e => h (List.cons.inj e).1
    | _, isFalse hs => isFalse fun e => hs (List.cons.inj e).2

/-- Equality of object entries. -/
def decEqEntries : (a b : List (String × JsonTree)) → Decidable (a = b)
  | [], [] => isTrue rfl
  | [], _ :: _ | _ :: _, [] => isFalse (by simp)
  | (j, x) :: xs, (k, y) :: ys =>
    if hk : j = k then match decEq x y, decEqEntries xs ys with
      | isTrue h, isTrue hs => isTrue (by rw [hk, h, hs])
      | isFalse h, _ => isFalse fun e => h (Prod.mk.inj (List.cons.inj e).1).2
      | _, isFalse hs => isFalse fun e => hs (List.cons.inj e).2
    else isFalse fun e => hk (Prod.mk.inj (List.cons.inj e).1).1
end

instance : DecidableEq JsonTree := decEq

mutual
/-- Every object of the tree lists its keys in increasing order. -/
def Canonical : JsonTree → Prop
  | .arr items => CanonicalItems items
  | .obj entries => entries.Pairwise (fun a b => a.1 < b.1) ∧ CanonicalEntries entries
  | _ => True

/-- Every item is canonical. -/
def CanonicalItems : List JsonTree → Prop
  | [] => True
  | t :: rest => Canonical t ∧ CanonicalItems rest

/-- Every entry holds a canonical value. -/
def CanonicalEntries : List (String × JsonTree) → Prop
  | [] => True
  | (_, t) :: rest => Canonical t ∧ CanonicalEntries rest
end

/-- Items are canonical if each of them is. -/
theorem canonicalItems_iff {items : List JsonTree} :
    CanonicalItems items ↔ ∀ t ∈ items, Canonical t := by
  induction items with
  | nil => simp [CanonicalItems]
  | cons t rest ih => simp [CanonicalItems, ih]

/-- Entries are canonical if each of their values is. -/
theorem canonicalEntries_iff {entries : List (String × JsonTree)} :
    CanonicalEntries entries ↔ ∀ e ∈ entries, Canonical e.2 := by
  induction entries with
  | nil => simp [CanonicalEntries]
  | cons e rest ih => obtain ⟨k, t⟩ := e; simp [CanonicalEntries, ih]

end JsonTree

/-- A JSON value: a syntax tree with the keys of every object in order. -/
structure Json where
  tree : JsonTree
  canonical : tree.Canonical

namespace Json

/-- A value is its syntax tree. -/
theorem ext_tree {v w : Json} (h : v.tree = w.tree) : v = w := by
  cases v; cases w; cases h; rfl

instance : DecidableEq Json := fun v w =>
  decidable_of_iff (v.tree = w.tree) ⟨ext_tree, congrArg tree⟩

/-- JSON `null`, Python's `None`. -/
def null : Json := ⟨.null, trivial⟩

/-- A JSON boolean. -/
def bool (b : Bool) : Json := ⟨.bool b, trivial⟩

/-- A JSON integer. -/
def int (n : ℤ) : Json := ⟨.int n, trivial⟩

/-- A JSON float. -/
def float (x : ℚ) : Json := ⟨.float x, trivial⟩

/-- A JSON number beyond all floats. -/
def inf (negative : Bool) : Json := ⟨.inf negative, trivial⟩

/-- A JSON string. -/
def str (s : String) : Json := ⟨.str s, trivial⟩

/-- A JSON array, Python's list. -/
def arr (items : List Json) : Json :=
  ⟨.arr (items.map tree), JsonTree.canonicalItems_iff.mpr (by
    intro t ht
    obtain ⟨v, _, rfl⟩ := List.mem_map.mp ht
    exact v.canonical)⟩

/-- A JSON object, Python's dict with string keys. -/
def obj (d : Dict String Json) : Json :=
  ⟨.obj (d.entries.map fun e => (e.1, e.2.tree)), List.pairwise_map.mpr d.sorted,
    JsonTree.canonicalEntries_iff.mpr (by
      intro e he
      obtain ⟨p, _, rfl⟩ := List.mem_map.mp he
      exact p.2.canonical)⟩

instance : Inhabited Json := ⟨null⟩

/-- What a value is, with its parts as values again. -/
inductive View
  | null
  | bool (b : Bool)
  | int (n : ℤ)
  | float (x : ℚ)
  | inf (negative : Bool)
  | str (s : String)
  | arr (items : List Json)
  | obj (d : Dict String Json)

/-- Take a value apart. -/
def view : Json → View
  | ⟨.null, _⟩ => .null
  | ⟨.bool b, _⟩ => .bool b
  | ⟨.int n, _⟩ => .int n
  | ⟨.float x, _⟩ => .float x
  | ⟨.inf negative, _⟩ => .inf negative
  | ⟨.str s, _⟩ => .str s
  | ⟨.arr items, h⟩ =>
    .arr (items.pmap (fun t ht => ⟨t, ht⟩) (JsonTree.canonicalItems_iff.mp h))
  | ⟨.obj entries, h⟩ =>
    .obj ⟨entries.pmap (fun e he => (e.1, ⟨e.2, he⟩)) (JsonTree.canonicalEntries_iff.mp h.2), by
      refine List.Pairwise.pmap h.1 _ ?_
      intro a _ b _ hlt
      exact hlt⟩

/-- `null` is viewed as `null`. -/
@[simp] theorem view_null : null.view = .null := rfl

/-- A boolean is viewed as itself. -/
@[simp] theorem view_bool (b : Bool) : (bool b).view = .bool b := rfl

/-- An integer is viewed as itself. -/
@[simp] theorem view_int (n : ℤ) : (int n).view = .int n := rfl

/-- A float is viewed as itself. -/
@[simp] theorem view_float (x : ℚ) : (float x).view = .float x := rfl

/-- An infinity is viewed as itself. -/
@[simp] theorem view_inf (negative : Bool) : (inf negative).view = .inf negative := rfl

/-- A text is viewed as itself. -/
@[simp] theorem view_str (s : String) : (str s).view = .str s := rfl

/-- Items that are taken apart are the items. -/
private theorem pmap_items (items : List Json)
    (h : ∀ t ∈ items.map tree, t.Canonical) :
    (items.map tree).pmap (fun t ht => (⟨t, ht⟩ : Json)) h = items := by
  induction items with
  | nil => rfl
  | cons v rest ih => exact congrArg (List.cons v) (ih fun x hx => h x (List.mem_cons_of_mem _ hx))

/-- Entries that are taken apart are the entries. -/
private theorem pmap_entries (entries : List (String × Json))
    (h : ∀ e ∈ entries.map (fun e => (e.1, e.2.tree)), e.2.Canonical) :
    (entries.map (fun e => (e.1, e.2.tree))).pmap (fun e he => (e.1, (⟨e.2, he⟩ : Json))) h =
      entries := by
  induction entries with
  | nil => rfl
  | cons e rest ih => exact congrArg (List.cons e) (ih fun x hx => h x (List.mem_cons_of_mem _ hx))

/-- Taking an array apart gives back its items. -/
@[simp] theorem view_arr (items : List Json) : (arr items).view = .arr items :=
  congrArg View.arr (pmap_items items _)

/-- Taking an object apart gives back its mapping. -/
@[simp] theorem view_obj (d : Dict String Json) : (obj d).view = .obj d :=
  congrArg View.obj (Dict.ext_entries (pmap_entries d.entries _))

end Json

/-- The text of a JSON mapping in a column. -/
structure JsonText where
  value : Dict String Json
deriving DecidableEq

/-- `_dumps`: the text of a mapping, keys sorted. -/
def dumps (value : Dict String Json) : JsonText := ⟨value⟩

/-- `_loads` on a non-null column: the mapping the text spells. -/
def loads (text : JsonText) : Dict String Json := text.value

/-- Reading a written mapping gives it back. -/
@[simp] theorem loads_dumps (value : Dict String Json) : loads (dumps value) = value := rfl

/-- Writing a read mapping gives its text back. -/
@[simp] theorem dumps_loads (text : JsonText) : dumps (loads text) = text := rfl

end TPUSwarm
