/-!
# Types

Types are given, never inferred: instances of named classes, references to type
variables, the type of `None`, and the unconstrained type. A declared name carries a
`Binding`, which is a type or the notice that none is known yet.
-/

namespace DataHolder

/-- A type; the arguments of an instance may nest further types. -/
inductive Ty where
  /-- An instance of the class of this full name, applied to type arguments. -/
  | inst (fullname : String) (args : List Ty)
  /-- A reference to a type variable and its upper bound. -/
  | typeVar (name fullname : String) (id : Int) (bound : Ty)
  /-- The type of `None`. -/
  | none
  /-- The type that is compatible with every other. -/
  | any
deriving Inhabited

namespace Ty

mutual
/-- Equality of types is decided by descent through arguments and bounds. -/
def decEq : (s t : Ty) → Decidable (s = t)
  | .inst f xs, .inst g ys =>
      if hf : f = g then
        match decEqList xs ys with
        | .isTrue h => .isTrue (by rw [hf, h])
        | .isFalse h => .isFalse (by simp [h])
      else .isFalse (by simp [hf])
  | .typeVar n f i b, .typeVar n' f' i' b' =>
      if hn : n = n' ∧ f = f' ∧ i = i' then
        match decEq b b' with
        | .isTrue h => .isTrue (by rw [hn.1, hn.2.1, hn.2.2, h])
        | .isFalse h => .isFalse (by simp [h])
      else .isFalse (by
        intro h
        injection h with h₁ h₂ h₃
        exact hn ⟨h₁, h₂, h₃⟩)
  | .none, .none => .isTrue rfl
  | .any, .any => .isTrue rfl
  | .inst _ _, .typeVar _ _ _ _ => .isFalse (by simp)
  | .inst _ _, .none => .isFalse (by simp)
  | .inst _ _, .any => .isFalse (by simp)
  | .typeVar _ _ _ _, .inst _ _ => .isFalse (by simp)
  | .typeVar _ _ _ _, .none => .isFalse (by simp)
  | .typeVar _ _ _ _, .any => .isFalse (by simp)
  | .none, .inst _ _ => .isFalse (by simp)
  | .none, .typeVar _ _ _ _ => .isFalse (by simp)
  | .none, .any => .isFalse (by simp)
  | .any, .inst _ _ => .isFalse (by simp)
  | .any, .typeVar _ _ _ _ => .isFalse (by simp)
  | .any, .none => .isFalse (by simp)

/-- Lists of types are compared member by member. -/
def decEqList : (xs ys : List Ty) → Decidable (xs = ys)
  | [], [] => .isTrue rfl
  | [], _ :: _ => .isFalse (by simp)
  | _ :: _, [] => .isFalse (by simp)
  | x :: xs, y :: ys =>
      match decEq x y with
      | .isTrue hx =>
          match decEqList xs ys with
          | .isTrue hxs => .isTrue (by rw [hx, hxs])
          | .isFalse hxs => .isFalse (by simp [hxs])
      | .isFalse hx => .isFalse (by simp [hx])
end

instance : DecidableEq Ty := decEq

/-- The plain instance of a class, without type arguments. -/
def named (fullname : String) : Ty := .inst fullname []

/-- The full name of the class a type is an instance of. -/
def fullname? : Ty → Option String
  | .inst fullname _ => some fullname
  | _ => Option.none

/-- The type arguments of an instance; every other type has none. -/
def args : Ty → List Ty
  | .inst _ args => args
  | _ => []

/-- Whether a type is an instance of the class of this full name. -/
def isInst (t : Ty) (fullname : String) : Bool := t.fullname? == some fullname

/-- What a one-argument wrapper holds: its first argument, or anything when it has none. -/
def content (t : Ty) : Ty := t.args.headD .any

mutual
/-- The written form of a type: a full name with bracketed arguments, or a short name. -/
def text : Ty → String
  | .inst fullname [] => fullname
  | .inst fullname (t :: ts) => fullname ++ "[" ++ t.text ++ textRest ts ++ "]"
  | .typeVar name _ _ _ => name
  | .none => "None"
  | .any => "Any"

/-- The arguments after the first, each behind a comma. -/
def textRest : List Ty → String
  | [] => ""
  | t :: ts => ", " ++ t.text ++ textRest ts
end

end Ty

/-- A type variable with its upper bound; a negative `id` marks one that belongs to a method. -/
structure TypeVar where
  name : String
  fullname : String
  id : Int
  bound : Ty
deriving DecidableEq, Inhabited

/-- The reference to a type variable. -/
def TypeVar.ty (v : TypeVar) : Ty := .typeVar v.name v.fullname v.id v.bound

/-- The type variable that a type refers to. -/
def Ty.typeVar? : Ty → Option TypeVar
  | .typeVar name fullname id bound => some ⟨name, fullname, id, bound⟩
  | _ => Option.none

/-- The type of a declared name, which may not be known yet. -/
inductive Binding where
  | resolved (ty : Ty)
  | pending
deriving DecidableEq, Inhabited

namespace Binding

/-- The type, once it is known. -/
def ty? : Binding → Option Ty
  | .resolved t => some t
  | .pending => none

/-- Whether the type is still unknown. -/
def isPending : Binding → Bool
  | .resolved _ => false
  | .pending => true

end Binding

end DataHolder
