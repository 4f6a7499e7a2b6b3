import DataHolder.ClassDecl

/-!
# The registry of classes

Classes are numbered in the order in which they come in and refer to each other by number.
A full name that several classes share belongs to the last of them. Members are looked up
along the linearized ancestors of a class, the class itself first; numbers that the
registry does not hold are passed over.
-/

namespace DataHolder

/-- All known classes, each under its number. -/
structure Registry where
  classes : List ClassDecl := []
deriving Inhabited

/-- The position of the last element that satisfies a test. -/
def lastIndex? {α : Type} (p : α → Bool) : List α → Option Nat
  | [] => none
  | a :: rest =>
    match lastIndex? p rest with
    | some i => some (i + 1)
    | none => if p a then some 0 else none

namespace Registry

/-- The number of classes. -/
def size (r : Registry) : Nat := r.classes.length

/-- The class with a number. -/
def get? (r : Registry) (id : ClassId) : Option ClassDecl := r.classes[id]?

/-- The registry with another class under a number that it holds. -/
def set (r : Registry) (id : ClassId) (c : ClassDecl) : Registry := ⟨r.classes.set id c⟩

/-- The number of the next class. -/
def nextId (r : Registry) : ClassId := r.size

/-- Add a class with its linearized ancestors, which do not contain the class itself. -/
def add (r : Registry) (c : ClassDecl) (ancestors : List ClassId) : Registry :=
  ⟨r.classes ++ [{ c with mro := r.nextId :: ancestors }]⟩

/-- The number of the class with a full name. -/
def find? (r : Registry) (fullname : String) : Option ClassId :=
  lastIndex? (fun c => c.fullname == fullname) r.classes

/-- The first answer along the linearized ancestors of a class. -/
def searchMro {α : Type} (r : Registry) (id : ClassId) (f : ClassDecl → Option α) : Option α :=
  (r.get? id).bind fun c => c.mro.findSome? fun ancestor => (r.get? ancestor).bind f

/-- The member that a name resolves to. -/
def lookup (r : Registry) (id : ClassId) (name : String) : Option Member :=
  r.searchMro id fun c => c.members.get? name

/-- The method that a name resolves to; none where the nearest member is no method. -/
def lookupMethod (r : Registry) (id : ClassId) (name : String) : Option Method :=
  (r.lookup id name).bind fun m => m.symbol.method?

/-- Whether a class has another among its linearized ancestors. -/
def isSubclass (r : Registry) (sub sup : ClassId) : Bool :=
  (r.get? sub).any fun c => c.mro.contains sup

@[simp] theorem get?_set_self (r : Registry) (id : ClassId) (c : ClassDecl) (h : id < r.size) :
    (r.set id c).get? id = some c :=
  List.getElem?_set_self h

theorem get?_set_ne (r : Registry) {id id' : ClassId} (c : ClassDecl) (h : id ≠ id') :
    (r.set id c).get? id' = r.get? id' := by
  simp [set, get?, List.getElem?_set_ne h]

@[simp] theorem size_set (r : Registry) (id : ClassId) (c : ClassDecl) :
    (r.set id c).size = r.size := by
  simp [set, size]

end Registry

end DataHolder
