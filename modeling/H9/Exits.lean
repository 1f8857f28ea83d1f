import H9.Lib.Prog

/-!
# How a call ends early

The exceptions the program throws, each with the text or number it carries, and the ways in which
it stops for good.
-/

namespace H9

inductive Errno
  | EAGAIN
  | EBADF
  | ECONNRESET
  | ENXIO
  | EPIPE
  | other (n : ℕ)
deriving DecidableEq, Repr

/-- A `SocketMgr::Socket*`: the server, a driver by its name, or a client by its number. -/
inductive SocketRef
  | server
  | driver (name : String)
  | client (k : ℕ)
deriving DecidableEq, Repr

inductive Exn
  | closeSocketException (socket : SocketRef)
  | invalidMsg (what : String)
  | out_of_range (what : String)
  | invalid_argument (what : String)
  | system_error (errno : Errno)
  /-- An `assert` that fails. -/
  | abort
  /-- An exception out of a function that is `noexcept`. -/
  | terminate
  /-- What C++ leaves undefined. -/
  | undefined
  /-- A write behind the end of an array, which C++ leaves undefined too. -/
  | overrun
deriving DecidableEq, Repr

/-- It neither asks for a socket to be closed nor comes from one that is registered. -/
def Exn.Plain : Exn → Prop
  | .closeSocketException _ | .overrun => False
  | _ => True

/-- The visit of `r` may end with it: no other socket is to be closed, and none is registered. -/
def Exn.For (r : SocketRef) : Exn → Prop
  | .closeSocketException ref => ref = r
  | .overrun => False
  | _ => True

theorem Exn.for_close (r : SocketRef) : (Exn.closeSocketException r).For r := rfl

theorem Exn.Plain.for {e : Exn} (h : e.Plain) (r : SocketRef) : e.For r := by
  cases e <;> first | exact h.elim | trivial

theorem Exn.Plain.ne_close {e : Exn} (h : e.Plain) (ref : SocketRef) : e ≠ .closeSocketException ref := by
  rintro rfl
  exact h

theorem Exn.For.plain {e : Exn} {r : SocketRef} (h : e.For r) (hne : e ≠ .closeSocketException r) :
    e.Plain := by
  rcases e with ref | _
  case closeSocketException => exact hne (congrArg Exn.closeSocketException h)
  all_goals exact h

/-- A call that ends with no exception but a plain one. -/
def EndsPlain {α : Type} (x : Except Exn α) : Prop := ∀ e, x = .error e → e.Plain

namespace EndsPlain

variable {α β : Type}

theorem exit {x : Except Exn α} (h : EndsPlain x) (r : SocketRef) {e : Exn} (he : x = .error e) :
    e.For r := (h e he).for r

@[simp] theorem ok (a : α) : EndsPlain (.ok a : Except Exn α) := fun _ h => by cases h

@[simp] theorem pure (a : α) : EndsPlain (Pure.pure a : Except Exn α) := ok a

theorem error {e : Exn} (h : e.Plain) : EndsPlain (.error e : Except Exn α) :=
  fun _ he => Except.error.inj he ▸ h

theorem bind {x : Except Exn α} {f : α → Except Exn β} (hx : EndsPlain x)
    (hf : ∀ a, EndsPlain (f a)) : EndsPlain (x >>= f) := by
  rcases x with e | a
  · exact error (hx e rfl)
  · exact hf a

theorem ite {c : Prop} [Decidable c] {x y : Except Exn α} (hx : EndsPlain x) (hy : EndsPlain y) :
    EndsPlain (if c then x else y) := by
  split
  · exact hx
  · exact hy

end EndsPlain

end H9
