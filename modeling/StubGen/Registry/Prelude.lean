import StubGen.Registry

/-!
# The root types

The declarations of the two classes that other types extend without saying so: the root class, whose
members every class inherits, and the root of the enumerations.
-/

namespace StubGen

namespace Prelude

/-- A method of the root class. -/
def method (name : String) (modifiers : List Modifier) (params : List TypeRef := [])
    (returns : TypeRef := .void) (throws : List TypeRef := []) : Method :=
  { name, modifiers := .ofList modifiers, params, returns, throws }

def interrupted : TypeRef := .named ⟨"java.lang.InterruptedException"⟩

def int : TypeRef := .named ⟨"int"⟩

def long : TypeRef := .named ⟨"long"⟩

def string : TypeRef := .named ⟨"java.lang.String"⟩

/-- The root of the classes. -/
def object : Declaration where
  name := .object
  modifiers := .ofList [.publicAccess]
  constructors := [{ modifiers := .ofList [.publicAccess] }]
  methods := [
    method "getClass" [.publicAccess, .final, .native] []
      (.parameterized ⟨"java.lang.Class"⟩ [.wildcard .upper []]),
    method "hashCode" [.publicAccess, .native] [] int,
    method "equals" [.publicAccess] [.object] (.named ⟨"boolean"⟩),
    method "clone" [.protectedAccess, .native] [] .object
      [.named ⟨"java.lang.CloneNotSupportedException"⟩],
    method "toString" [.publicAccess] [] string,
    method "notify" [.publicAccess, .final, .native],
    method "notifyAll" [.publicAccess, .final, .native],
    method "wait" [.publicAccess, .final] [] .void [interrupted],
    method "wait" [.publicAccess, .final, .native] [long] .void [interrupted],
    method "wait" [.publicAccess, .final] [long, int] .void [interrupted],
    { method "finalize" [.protectedAccess] [] .void [.named ⟨"java.lang.Throwable"⟩] with
      deprecated := true }]

/-- The root of the enumerations. -/
def enum : Declaration where
  name := .enum
  modifiers := .ofList [.publicAccess, .abstract]
  typeParams := [
    { name := "E", bounds := [.parameterized .enum [.var ⟨"E", .ofType .enum⟩]] }]
  constructors := [{ modifiers := .ofList [.protectedAccess], params := [string, int] }]

end Prelude

/-- The registry that holds the root types. -/
def Registry.prelude : Registry := ⟨[Prelude.object, Prelude.enum]⟩

end StubGen
