/-
The authenticated key-value state of `kernel/src/state.rs`: an ordered map from
text keys to byte strings, read and written through JSON by the prisms.
-/

import Veilux.Kernel.Types

namespace Veilux

inductive StateError where
  | notFound (key : String)
  | serialization (text : String)

/-- The `Display` texts. -/
def StateError.text : StateError → String
  | .notFound key => "key not found: " ++ key
  | .serialization text => "serialization error: " ++ text

@[ext]
structure StateTree where
  entries : Std.ExtTreeMap String (List UInt8)

namespace StateTree

def empty : StateTree := ⟨∅⟩

instance : Inhabited StateTree := ⟨empty⟩

def get (state : StateTree) (key : String) : Option (List UInt8) := state.entries[key]?

def put (state : StateTree) (key : String) (value : List UInt8) : StateTree :=
  ⟨state.entries.insert key value⟩

def remove (state : StateTree) (key : String) : StateTree := ⟨state.entries.erase key⟩

def contains (state : StateTree) (key : String) : Bool := state.entries.contains key

def isEmpty (state : StateTree) : Bool := state.entries.isEmpty

/-- Two trees with the same reads are the same tree. -/
theorem ext_get {left right : StateTree} (same : ∀ key, left.get key = right.get key) :
    left = right := by
  apply StateTree.ext
  exact Std.ExtTreeMap.ext_getElem? same

@[simp] theorem get_empty (key : String) : empty.get key = none := by
  simp [get, empty]

theorem get_put (state : StateTree) (key other : String) (value : List UInt8) :
    (state.put key value).get other = if key = other then some value else state.get other := by
  simp only [get, put, Std.ExtTreeMap.getElem?_insert, Std.LawfulEqCmp.compare_eq_iff_eq]

@[simp] theorem get_put_self (state : StateTree) (key : String) (value : List UInt8) :
    (state.put key value).get key = some value := by
  rw [get_put, if_pos rfl]

theorem get_put_ne (state : StateTree) {key other : String} (value : List UInt8)
    (different : key ≠ other) : (state.put key value).get other = state.get other := by
  rw [get_put, if_neg different]

theorem contains_eq_isSome (state : StateTree) (key : String) :
    state.contains key = (state.get key).isSome :=
  Std.ExtTreeMap.contains_eq_isSome_getElem?

/-- The derived serializer writes the map of entries in key order. -/
instance : Serialize StateTree where
  toJson state :=
    .obj [("entries", .obj (state.entries.toList.map fun entry => (entry.1, toJson entry.2)))]
  toJson_injective := by
    intro left right same
    simp only [Json.obj.injEq, List.cons.injEq, Prod.mk.injEq, true_and, and_true] at same
    have entries : left.entries.toList = right.entries.toList := by
      refine List.map_injective_iff.mpr ?_ same
      intro first second equal
      obtain ⟨keys, values⟩ := Prod.mk.inj equal
      exact Prod.ext keys (Serialize.toJson_injective values)
    apply ext_get
    intro key
    unfold get
    apply Option.ext
    intro value
    rw [← Std.ExtTreeMap.mem_toList_iff_getElem?_eq_some, entries,
      Std.ExtTreeMap.mem_toList_iff_getElem?_eq_some]

/-! ### JSON values -/

/-- `put_json`; the serializer has no failing input among the stored types. -/
def putJson {α : Type} [Serialize α] (state : StateTree) (key : String) (value : α) : StateTree :=
  state.put key (toVec value)

def getJson [SerdeJson] (α : Type) [Serialize α] (state : StateTree) (key : String) :
    Except StateError (Option α) :=
  match state.get key with
  | none => .ok none
  | some bytes =>
      match fromSlice α bytes with
      | .ok value => .ok (some value)
      | .error text => .error (.serialization text)

/-- `get_json(..).ok().flatten()`: a missing or unreadable entry reads as absent. -/
def getJson? [SerdeJson] (α : Type) [Serialize α] (state : StateTree) (key : String) : Option α :=
  match state.getJson α key with
  | .ok value => value
  | .error _ => none

section Reads

variable [SerdeJson] {α : Type} [Serialize α]

@[simp] theorem getJson_putJson (state : StateTree) (key : String) (value : α) :
    (state.putJson key value).getJson α key = .ok (some value) := by
  simp only [getJson, putJson, get_put_self, fromSlice_toVec]

theorem getJson_put_ne (state : StateTree) {key other : String} (bytes : List UInt8)
    (different : key ≠ other) :
    (state.put key bytes).getJson α other = state.getJson α other := by
  simp only [getJson, get_put_ne state bytes different]

@[simp] theorem getJson?_putJson (state : StateTree) (key : String) (value : α) :
    (state.putJson key value).getJson? α key = some value := by
  simp only [getJson?, getJson_putJson]

theorem getJson?_put_ne (state : StateTree) {key other : String} (bytes : List UInt8)
    (different : key ≠ other) :
    (state.put key bytes).getJson? α other = state.getJson? α other := by
  simp only [getJson?, getJson_put_ne state bytes different]

end Reads

/-! ### The state root -/

section Digest

variable [Blake3]

def leafHash (key : String) (value : List UInt8) : Hash :=
  Hash.commit "kv" [Bytes.utf8 key, value]

def root (state : StateTree) : Hash :=
  if state.entries.isEmpty then Hash.zero
  else merkleRoot (state.entries.toList.map fun entry => leafHash entry.1 entry.2)

end Digest

end StateTree

end Veilux
