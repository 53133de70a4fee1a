import H2Go.Protocol
import H2Go.Lib.Progress

/-!
This module contains the errors of the driver: the sentinels of the source and of the packages it
uses, the structured error of the server, and the ways errors wrap each other.
-/

namespace H2Go

/--
The structured error the server sends, `Error` in the source.
-/
structure H2Error where
  sqlState : GoString
  message : GoString
  sql : GoString
  code : Int
  stackTrace : GoString
  deriving DecidableEq, Repr

def errorCodeStatementWasCanceled : Int := 57014

inductive FmtArg where
  | int (n : Int)
  | str (s : GoString)
  deriving DecidableEq, Repr

/--
Errors. `errorf` is `fmt.Errorf` without a `%w` verb, `wrapf` with one and `wrapf₂` with two, they
keep the format string of the source. `join` is `errors.Join`.
-/
inductive Err where
  | eof
  | unexpectedEOF
  | timeout
  | netError
  | canceled
  | deadlineExceeded
  | badConn
  | txDone
  | unsupportedType
  | nestedOnDemandLOB
  | closed
  | lastInsertIDUnavailable
  | unsupportedServerVersion
  | h2 (e : H2Error)
  | errorf (format : String) (args : List FmtArg)
  | wrapf (format : String) (args : List FmtArg) (err : Err)
  | wrapf₂ (format : String) (err₁ err₂ : Err)
  | join (err₁ err₂ : Err)
  deriving DecidableEq, Repr

namespace Err

/--
`fmt.Errorf` with the underlying error as the only argument.
-/
def wrap (err : Err) (format : String) : Err := wrapf format [] err

/--
`errors.As` for `*Error`.
-/
def asH2 : Err → Option H2Error
  | h2 e => some e
  | wrapf _ _ err => err.asH2
  | wrapf₂ _ err₁ err₂ => err₁.asH2.or err₂.asH2
  | join err₁ err₂ => err₁.asH2.or err₂.asH2
  | _ => none

/--
`errors.Is` for one of the sentinels.
-/
def is (err target : Err) : Bool :=
  match err with
  | wrapf _ _ err => err.is target
  | wrapf₂ _ err₁ err₂ => err₁.is target || err₂.is target
  | join err₁ err₂ => err₁.is target || err₂.is target
  | err => err = target

/--
`errors.As` for a `net.Error` with `Timeout()`.
-/
def isTimeout : Err → Bool
  | timeout => true
  | deadlineExceeded => true
  | wrapf _ _ err => err.isTimeout
  | wrapf₂ _ err₁ err₂ => err₁.isTimeout || err₂.isTimeout
  | join err₁ err₂ => err₁.isTimeout || err₂.isTimeout
  | _ => false

/--
An error that neither comes from an error frame of the server nor says that there is no single
generated key.
-/
def Plain (e : Err) : Prop := e.asH2 = none ∧ e.is .lastInsertIDUnavailable = false

@[simp]
theorem asH2_wrap (err : Err) (format : String) : (err.wrap format).asH2 = err.asH2 := rfl

@[simp]
theorem asH2_wrapf (format : String) (args : List FmtArg) (err : Err)
    : (wrapf format args err).asH2 = err.asH2 := rfl

@[simp]
theorem asH2_errorf (format : String) (args : List FmtArg) : (errorf format args).asH2 = none := rfl

theorem plain_errorf (format : String) (args : List FmtArg) : (errorf format args).Plain := ⟨rfl, rfl⟩

theorem Plain.asH2_ne {e : Err} (h : e.Plain) (h2Err : H2Error) : e.asH2 ≠ some h2Err := by
  rw [h.1]
  exact nofun

theorem Plain.wrap {e : Err} (format : String) (h : e.Plain) : (e.wrap format).Plain := h

theorem Plain.wrapf {e : Err} (format : String) (args : List FmtArg) (h : e.Plain)
    : (wrapf format args e).Plain := h

@[simp]
theorem asH2_h2 (e : H2Error) : (h2 e).asH2 = some e := rfl

end Err

/--
Run `m` and wrap its error, the pattern `if err != nil { return fmt.Errorf("...: %w", err) }`.
-/
abbrev wrapErr {σ α : Type} (format : String) (args : List FmtArg) (m : Prog Err σ α)
    : Prog Err σ α :=
  Prog.mapErr (Err.wrapf format args) m

theorem progress_wrapErr {τ σ α : Type} [Input τ σ] {N k : Nat} {R : α → Prop} {m : Prog Err σ α}
    (format : String) (args : List FmtArg) (h : Progress N m k R Err.Plain)
    : Progress N (wrapErr format args m) k R Err.Plain :=
  Progress.mapErr h

abbrev FailsPlain {σ α : Type} (m : Prog Err σ α) : Prop := FailsWith (fun e _ => e.Plain) m

theorem plain_wrapErr {σ α : Type} {m : Prog Err σ α} (format : String) (args : List FmtArg)
    (h : FailsPlain m)
    : FailsPlain (wrapErr format args m) :=
  FailsWith.mapErr h

/--
Wrap an error with the operation it happened in. The structured error of the server is returned
unchanged.
-/
def wrapError (op : String) (err : Err) : Err :=
  match err.asH2 with
  | some h2Err => .h2 h2Err
  | none => .wrapf "h2go: %s: %w" [.str (ascii op)] err

@[simp]
theorem asH2_wrapError (op : String) (err : Err) : (wrapError op err).asH2 = err.asH2 := by
  unfold wrapError
  split
  . next h => rw [h]; rfl
  . rfl

theorem Err.plain_wrapError (op : String) {err : Err} (h : err.Plain) : (wrapError op err).Plain := by
  unfold wrapError
  rw [h.1]
  exact h

theorem progress_wrapError {τ σ α : Type} [Input τ σ] {N k : Nat} {R : α → Prop} {m : Prog Err σ α}
    (op : String) (h : Progress N m k R Err.Plain)
    : Progress N (Prog.mapErr (wrapError op) m) k R Err.Plain := by
  apply Progress.mapErr
  exact h.weaken le_rfl (fun _ h => h) (fun _ => Err.plain_wrapError op)

end H2Go
