import Rehome.Data.Assoc
import Rehome.Decimal.Binary64

/-! # JSON values

Documents are ordered trees: an object is the list of its members in document order. Integers and
doubles are told apart, since an id is always an integer. Objects that come from a document have
distinct keys; `Json.WellFormed` says so. -/

namespace Rehome

inductive Json where
  | null
  | bool (b : Bool)
  | int (n : Int)
  | double (x : Binary64)
  | str (s : String)
  | arr (items : List Json)
  | obj (members : List (String × Json))
deriving Inhabited, Repr

namespace Json

/-! ## Equality -/

mutual

def beq : Json → Json → Bool
  | .null, .null => true
  | .bool a, .bool b => a == b
  | .int a, .int b => a == b
  | .double a, .double b => a == b
  | .str a, .str b => a == b
  | .arr as, .arr bs => beqItems as bs
  | .obj as, .obj bs => beqMembers as bs
  | _, _ => false

def beqItems : List Json → List Json → Bool
  | [], [] => true
  | a :: as, b :: bs => beq a b && beqItems as bs
  | _, _ => false

def beqMembers : List (String × Json) → List (String × Json) → Bool
  | [], [] => true
  | (k, a) :: as, (l, b) :: bs => k == l && beq a b && beqMembers as bs
  | _, _ => false

end

mutual

theorem eq_of_beq : (a b : Json) → beq a b = true → a = b
  | .arr as, .arr bs, h => by rw [eq_of_beqItems as bs (by simpa [beq] using h)]
  | .obj as, .obj bs, h => by rw [eq_of_beqMembers as bs (by simpa [beq] using h)]
  | .null, b, h => by cases b <;> simp_all [beq]
  | .bool _, b, h => by cases b <;> simp_all [beq]
  | .int _, b, h => by cases b <;> simp_all [beq]
  | .double _, b, h => by cases b <;> simp_all [beq]
  | .str _, b, h => by cases b <;> simp_all [beq]
  | .arr _, .null, h | .arr _, .bool _, h | .arr _, .int _, h | .arr _, .double _, h
  | .arr _, .str _, h | .arr _, .obj _, h => by simp [beq] at h
  | .obj _, .null, h | .obj _, .bool _, h | .obj _, .int _, h | .obj _, .double _, h
  | .obj _, .str _, h | .obj _, .arr _, h => by simp [beq] at h

theorem eq_of_beqItems : (as bs : List Json) → beqItems as bs = true → as = bs
  | [], [], _ => rfl
  | a :: as, b :: bs, h => by
    simp only [beqItems, Bool.and_eq_true] at h
    rw [eq_of_beq a b h.1, eq_of_beqItems as bs h.2]
  | [], _ :: _, h | _ :: _, [], h => by simp [beqItems] at h

theorem eq_of_beqMembers : (as bs : List (String × Json)) → beqMembers as bs = true → as = bs
  | [], [], _ => rfl
  | (k, a) :: as, (l, b) :: bs, h => by
    simp only [beqMembers, Bool.and_eq_true, beq_iff_eq] at h
    rw [h.1.1, eq_of_beq a b h.1.2, eq_of_beqMembers as bs h.2]
  | [], _ :: _, h | _ :: _, [], h => by simp [beqMembers] at h

end

mutual

theorem beq_self : (a : Json) → beq a a = true
  | .null | .bool _ | .int _ | .double _ | .str _ => by simp [beq]
  | .arr as => by simp [beq, beqItems_self as]
  | .obj as => by simp [beq, beqMembers_self as]

theorem beqItems_self : (as : List Json) → beqItems as as = true
  | [] => rfl
  | a :: as => by simp [beqItems, beq_self a, beqItems_self as]

theorem beqMembers_self : (as : List (String × Json)) → beqMembers as as = true
  | [] => rfl
  | (_, a) :: as => by simp [beqMembers, beq_self a, beqMembers_self as]

end

instance : DecidableEq Json := fun a b =>
  decidable_of_iff (beq a b = true) ⟨eq_of_beq a b, fun h => h ▸ beq_self a⟩

/-! ## Well-formed values -/

mutual

/-- Integers are in the range kept apart from doubles, and no object has a key twice. -/
def WellFormed : Json → Prop
  | .null | .bool _ | .double _ | .str _ => True
  | .int n => -(Nat.pow 2 63 : Int) ≤ n ∧ n < Nat.pow 2 64
  | .arr items => WellFormedItems items
  | .obj members => (members.map Prod.fst).Nodup ∧ WellFormedMembers members

def WellFormedItems : List Json → Prop
  | [] => True
  | j :: rest => WellFormed j ∧ WellFormedItems rest

def WellFormedMembers : List (String × Json) → Prop
  | [] => True
  | (_, j) :: rest => WellFormed j ∧ WellFormedMembers rest

end

/-! ## Reading -/

def isNull : Json → Bool
  | .null => true
  | _ => false

def isArr : Json → Bool
  | .arr _ => true
  | _ => false

def isObj : Json → Bool
  | .obj _ => true
  | _ => false

def str? : Json → Option String
  | .str s => some s
  | _ => none

/-- The value of a member, if this is an object that has it. -/
def member? (key : String) : Json → Option Json
  | .obj members => members.lookup key
  | _ => none

/-- An item by its index, if this is an array that has it. -/
def item? (i : Nat) : Json → Option Json
  | .arr items => items[i]?
  | _ => none

/-- The text of a member, if this is an object with a string there. -/
def text? (key : String) (j : Json) : Option String := (j.member? key).bind str?

/-- A word for the kind of a value. -/
def kind : Json → String
  | .null => "null"
  | .bool _ => "a boolean"
  | .int _ | .double _ => "a number"
  | .str _ => "a string"
  | .arr _ => "an array"
  | .obj _ => "an object"

/-! ## Changing one place -/

/-- Replaces an item, if this is an array that has it. -/
def setItem (j : Json) (i : Nat) (value : Json) : Json :=
  match j with
  | .arr items => .arr (items.set i value)
  | j => j

/-- Sets a member, if this is an object: in its place, or as a new last member. -/
def setMember (j : Json) (key : String) (value : Json) : Json :=
  match j with
  | .obj members => .obj (Assoc.put key value members)
  | j => j

section Effects

variable {m : Type → Type} [Monad m]

/-- Acts on the value of one member, if this is an object that has it. -/
def onMember (key : String) (act : Json → m Json) : Json → m Json
  | .obj members =>
    match members.lookup key with
    | some value => do return .obj (Assoc.put key (← act value) members)
    | none => pure (.obj members)
  | j => pure j

/-- Acts on the value of every member, in order. -/
def onMembers (act : String → Json → m Json) : Json → m Json
  | .obj members => do return .obj (← members.mapM fun p => do return (p.1, ← act p.1 p.2))
  | j => pure j

/-- Acts on every item of an array, in order. -/
def onItems (act : Json → m Json) : Json → m Json
  | .arr items => do return .arr (← items.mapM act)
  | j => pure j

/-- Acts on one item of an array, if it has it. -/
def onItem (i : Nat) (act : Json → m Json) : Json → m Json
  | .arr items =>
    match items[i]? with
    | some value => do return .arr (items.set i (← act value))
    | none => pure (.arr items)
  | j => pure j

/-- Acts on a value unless it is null. -/
def unlessNull (act : Json → m Json) : Json → m Json
  | .null => pure .null
  | j => act j

/-- Acts on objects alone. -/
def onObj (act : Json → m Json) : Json → m Json
  | .obj members => act (.obj members)
  | j => pure j

/-- Acts on arrays alone. -/
def onArr (act : Json → m Json) : Json → m Json
  | .arr items => act (.arr items)
  | j => pure j

/-- Acts on the text of strings alone. -/
def onStr (act : String → m String) : Json → m Json
  | .str s => do return .str (← act s)
  | j => pure j

end Effects

end Json

end Rehome
