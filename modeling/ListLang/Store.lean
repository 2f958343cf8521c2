import ListLang.Table
import ListLang.Text.Quoted
import ListLang.Value

/-!
# Stores

Names are bound in frames. A frame belongs to the global level, to a block or
to a function call, and knows the frame that encloses it. Frames are shared: a
function that remembers a frame sees what is bound there later. The store holds
all frames ever made, each at its own place, so remembering a frame means
remembering its place.

A frame is made after the frame that encloses it, so walking outwards always
leads to an earlier place and comes to an end.

## Main definitions

* `Frame`: A set of bindings with its enclosing frame.
* `Store`: All frames.
* `Store.push`: Making a frame.
* `Store.define`: Binding a name in a frame.
* `Store.walk`: The frames met on a walk outwards.
* `Store.chain`: A frame and those that enclose it, innermost first.
* `Store.find?`: The value of a name, seen from a frame.
* `Store.available`: The names that can be seen from a frame.

## Theorems

* `getElem?_push_of_lt`, `getElem?_push_self`: The frames after making one.
* `size_define`, `getElem?_define`: The frames after binding a name.
* `bindings_define`: The bindings of a frame after binding a name in it.
* `find?_zero`: What the global frame sees.
-/

namespace ListLang

/-- A set of bindings with its enclosing frame. -/
structure Frame where
  /-- What the frame was made for. -/
  label : String
  /-- The enclosing frame. -/
  parent : Option Nat
  /-- The bindings. -/
  bindings : Table Value := {}

/-- All frames, each at its own place. -/
structure Store where
  /-- The frames, oldest first. -/
  frames : Array Frame := #[]

namespace Store

/-- Put a frame into the store, at the first free place. -/
def push (s : Store) (f : Frame) : Nat × Store :=
  (s.frames.size, ⟨s.frames.push f⟩)

/-- Bind a name in a frame. The other frames stay as they are. -/
def define (s : Store) (id : Nat) (name : String) (v : Value) : Store :=
  ⟨s.frames.modify id fun f => { f with bindings := f.bindings.insert name v }⟩

/-- Making a frame leaves the frames before it as they are. -/
theorem getElem?_push_of_lt (s : Store) (f : Frame) (i : Nat) (h : i < s.frames.size) :
    (s.push f).2.frames[i]? = s.frames[i]? := by
  have hne : i ≠ s.frames.size := by omega
  simp only [push, Array.getElem?_push, hne, ↓reduceIte]

/-- A new frame is found at the place it was given. -/
theorem getElem?_push_self (s : Store) (f : Frame) :
    (s.push f).2.frames[(s.push f).1]? = some f := by
  simp only [push, Array.getElem?_push_size]

/-- Binding a name makes no frame. -/
theorem size_define (s : Store) (id : Nat) (name : String) (v : Value) :
    (s.define id name v).frames.size = s.frames.size := by
  simp only [define, Array.size_modify]

/-- Binding a name changes the bindings of its frame and of no other. -/
theorem getElem?_define (s : Store) (id : Nat) (name : String) (v : Value) (i : Nat) :
    (s.define id name v).frames[i]? =
      if id = i then s.frames[i]?.map fun f => { f with bindings := f.bindings.insert name v }
      else s.frames[i]? := by
  simp only [define, Array.getElem?_modify]

/-- The frames met on a walk of at most `steps` frames outwards. -/
def walk (s : Store) : (steps : Nat) → Nat → List Frame
  | 0, _ => []
  | steps + 1, id => match s.frames[id]? with
    | none => []
    | some f => f :: match f.parent with
      | some p => s.walk steps p
      | none => []

/-- A frame and those that enclose it, innermost first. There are no more of
    them than places up to that of the frame. -/
def chain (s : Store) (id : Nat) : List Frame :=
  s.walk (id + 1) id

/-- The value of a name, seen from a frame: the innermost binding counts. -/
def find? (s : Store) (id : Nat) (name : String) : Option Value :=
  (s.chain id).findSome? fun f => f.bindings.find? name

/-- The names that can be seen from a frame, innermost frame first. A name bound
    in several frames is there several times. -/
def available (s : Store) (id : Nat) : List String :=
  (s.chain id).flatMap fun f => f.bindings.names

/-- The bindings of one frame. -/
def bindings (s : Store) (id : Nat) : Table Value :=
  match s.frames[id]? with
  | some f => f.bindings
  | none => {}

theorem bindings_define (s : Store) {id : Nat} (h : id < s.frames.size) (name : String)
    (v : Value) : (s.define id name v).bindings id = (s.bindings id).insert name v := by
  unfold bindings
  rw [s.getElem?_define, if_pos rfl, Array.getElem?_eq_getElem h]
  rfl

/-- Nothing is seen from the first frame but what it binds. -/
theorem find?_zero (s : Store) (name : String) :
    s.find? 0 name = (s.bindings 0).find? name := by
  unfold find? chain bindings
  cases hframe : s.frames[0]? with
  | none =>
      simp only [walk, hframe]
      rfl
  | some f =>
      simp only [walk, hframe, List.findSome?_cons]
      cases f.bindings.find? name with
      | some v => rfl
      | none => cases f.parent <;> rfl

/-- A frame as text, for debugging: its label, its names and the label of the
    enclosing frame. -/
def inspect (s : Store) (id : Nat) : String :=
  match s.frames[id]? with
  | none => ""
  | some f =>
      let enclosing := match f.parent with
        | some p => match s.frames[p]? with
          | some outer => " (parent: " ++ outer.label ++ ")"
          | none => ""
        | none => ""
      "FLangEnvironment(" ++ f.label ++ ": " ++ quotedList f.bindings.names ++ enclosing ++ ")"

end Store

end ListLang
