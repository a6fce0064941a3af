import Mathlib.Data.Int.Notation
import Mathlib.Data.Nat.Notation
import Mathlib.Tactic.Common

/-!
# Exception — the C++ exceptions that the modelled code throws and catches
-/

namespace Webvirtd

/-- Users are named by the first capture of a request target. -/
abbrev User := String

/-- Exception classes.  `retryError` is `webvirt::retry_error`; the others are those of the standard
library and jsoncpp. -/
inductive ExnClass
  | runtimeError | overflowError | retryError
  | logicError | domainError | outOfRange | invalidArgument
  | jsonLogicError
  deriving DecidableEq, Repr

structure Exn where
  cls : ExnClass
  what : String
  deriving DecidableEq, Repr

/-- `catch (const c &)` takes an exception of class `e`: `e` is `c` or derives from it. -/
def ExnClass.catches : ExnClass → ExnClass → Bool
  | .runtimeError, .runtimeError => true
  | .runtimeError, .overflowError => true
  | .runtimeError, .retryError => true
  | .logicError, .logicError => true
  | .logicError, .domainError => true
  | .logicError, .outOfRange => true
  | .logicError, .invalidArgument => true
  | c, e => c == e

@[simp] theorem ExnClass.catches_self (c : ExnClass) : c.catches c = true := by
  cases c <;> rfl

/-- How a computation of the model can end other than by returning: with a C++ exception, in undefined
behaviour (a null pointer is dereferenced), or because the model's bound on a loop is used up. -/
inductive Failure
  | exn (e : Exn)
  | nullDeref
  | outOfFuel
  deriving DecidableEq, Repr

/-- A C++ exception, and not one of the other two. -/
def Failure.IsExn : Failure → Prop
  | .exn _ => True
  | _ => False

/-- `catch (const c &)`; undefined behaviour is not an exception. -/
def Failure.caughtBy (c : ExnClass) : Failure → Bool
  | .exn e => c.catches e.cls
  | _ => false

theorem caughtBy_of_ne {e : Exn} (h : e.cls ≠ .retryError) :
    (Failure.exn e).caughtBy .retryError = false := by
  obtain ⟨cls, what⟩ := e
  cases cls with
  | retryError => exact absurd rfl h
  | _ => rfl

end Webvirtd
