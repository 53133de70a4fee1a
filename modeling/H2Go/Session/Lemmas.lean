import H2Go.Session.Update

/-!
This module contains the run lemmas of the session: what an operation on its stream does to it, and
what a context adds to that.
-/

namespace H2Go

variable {σ : Type} {α : Type}

namespace Session

theorem io_run {s : Session σ} (h : s.trNil = false) (m : Prog Err (Tr σ) α)
    : io m s = (m s.tr).map id s.setTr := by
  simp [io, h]

theorem io_of_ok {s : Session σ} (h : s.trNil = false) {m : Prog Err (Tr σ) α} {a : α} {t : Tr σ}
    (hm : m s.tr = .ok a t)
    : io m s = .ok a (s.setTr t) := by
  rw [io_run h, hm, Out.map_ok]

theorem io_of_fail {s : Session σ} (h : s.trNil = false) {m : Prog Err (Tr σ) α} {e : Err}
    {t : Tr σ} (hm : m s.tr = .fail e t)
    : io m s = .fail e (s.setTr t) := by
  rw [io_run h, hm, Out.map_fail, id]

theorem io_bind {β : Type} (m : Prog Err (Tr σ) α) (f : α → Prog Err (Tr σ) β)
    : io m >>= (fun a => io (f a)) = io (m >>= f) := by
  funext s
  cases hnil : s.trNil with
  | true => simp [io, hnil]
  | false =>
    rw [Prog.bind_run, io_run hnil, io_run hnil, Prog.bind_run]
    cases m s.tr with
    | ok a t => exact io_run (by exact hnil) (f a)
    | fail | panic | stuck => rfl

@[simp]
theorem setTr_tr (s : Session σ) (t : Tr σ) : (s.setTr t).tr = t := rfl

@[simp]
theorem setTr_trNil (s : Session σ) (t : Tr σ) : (s.setTr t).trNil = s.trNil := rfl

@[simp]
theorem setTr_setTr (s : Session σ) (t t' : Tr σ) : (s.setTr t).setTr t' = s.setTr t' := rfl

@[simp]
theorem setTr_self (s : Session σ) : s.setTr s.tr = s := rfl

/--
The session after the error `e`: it survives only an error of the server.
-/
def afterErr (e : Err) (s : Session σ) : Session σ := if e.asH2.isNone then s.abort else s

theorem afterErr_of_plain {e : Err} (h : e.asH2 = none) (s : Session σ) : s.afterErr e = s.abort := by
  simp [afterErr, h]

@[simp]
theorem afterErr_tr (e : Err) (s : Session σ) : (s.afterErr e).tr = s.tr := by
  unfold afterErr
  split <;> rfl

theorem markUnlessAlignedH2Error_eq (e : Err)
    : (markUnlessAlignedH2Error e : Prog Err (Session σ) Unit) = Prog.modify (afterErr e) := by
  funext s
  unfold markUnlessAlignedH2Error afterErr
  split
  . simp [markStreamBroken]
  . simp

theorem orBreak_run {s : Session σ} (h : s.trNil = false) (m : Prog Err (Tr σ) α)
    : orBreak m s = match m s.tr with
        | .ok a t => .ok a (s.setTr t)
        | .fail e t => .fail e (s.setTr t).abort
        | .panic p => .panic p
        | .stuck => .stuck := by
  unfold orBreak
  rw [Prog.onFail_run, io_run h]
  cases m s.tr <;> rfl

theorem orBreakUnlessAligned_run {s : Session σ} (h : s.trNil = false) (m : Prog Err (Tr σ) α)
    : orBreakUnlessAligned m s = match m s.tr with
        | .ok a t => .ok a (s.setTr t)
        | .fail e t => .fail e ((s.setTr t).afterErr e)
        | .panic p => .panic p
        | .stuck => .stuck := by
  unfold orBreakUnlessAligned
  rw [Prog.onFail_run, io_run h]
  cases m s.tr with
  | fail e t =>
    dsimp only [Out.map_fail, id]
    rw [markUnlessAlignedH2Error_eq]
    rfl
  | ok | panic | stuck => rfl

theorem orBreak_of_frame {m : Prog Err (Tr σ) α} {a : α} {b : List UInt8} (h : Frame m a b)
    {s : Session σ} (hopen : s.trNil = false) (rest : List UInt8) (hinp : s.tr.inp = b ++ rest)
    : orBreak m s = .ok a (s.setTr (Input.move b rest s.tr)) := by
  rw [orBreak_run hopen, h.exact s.tr rest hinp]

/--
A step that reads: the stream moves on, and an error leaves what was written as it is.
-/
theorem orBreak_reader {m : Prog Err (Tr σ) α} [LawfulReader m] {s : Session σ}
    (hopen : s.trNil = false)
    : (orBreak m s).Holds True (fun a s' => ∃ t', m s.tr = .ok a t' ∧ s' = s.setTr t')
        (fun _ s' => s'.tr.writes = s.tr.writes) := by
  rw [orBreak_run hopen]
  cases hrun : m s.tr with
  | ok a t => exact ⟨t, rfl, rfl⟩
  | fail e t =>
    obtain ⟨used, rest, -, rfl⟩ := LawfulReader.fail_run hrun
    rfl
  | panic | stuck => trivial

theorem orBreakUnlessAligned_reader {m : Prog Err (Tr σ) α} {s : Session σ} (hopen : s.trNil = false)
    (hfail : ∀ {e t'}, m s.tr = .fail e t' → t'.writes = s.tr.writes)
    : (orBreakUnlessAligned m s).Holds True (fun a s' => ∃ t', m s.tr = .ok a t' ∧ s' = s.setTr t')
        (fun _ s' => s'.tr.writes = s.tr.writes) := by
  rw [orBreakUnlessAligned_run hopen]
  cases hrun : m s.tr with
  | ok a t => exact ⟨t, rfl, rfl⟩
  | fail e t =>
    show ((s.setTr t).afterErr e).tr.writes = _
    rw [afterErr_tr]
    exact hfail hrun
  | panic | stuck => trivial

/--
The session has been given up: it is marked dead and its transport is closed.
-/
def Discarded (s : Session σ) : Prop := s.dead = true ∧ s.transportClosed = true

theorem discarded_of_trNil {s : Session σ} (h : s.trNil = true) : s.Discarded :=
  ⟨by rw [s.dead_eq, h], s.closed_of_trNil h⟩

theorem discarded_abort (s : Session σ) : s.abort.Discarded := ⟨rfl, rfl⟩

theorem trNil_of_dead {s : Session σ} (h : s.dead = true) : s.trNil = true := by
  rw [← s.dead_eq, h]

theorem ifOpen_of_open {s : Session σ} (h : s.trNil = false) (e : Err)
    (m : Prog Err (Session σ) α)
    : ifOpen e m s = m s := by
  simp [ifOpen, h]

theorem ifOpen_of_trNil {s : Session σ} (h : s.trNil = true) (e : Err) (m : Prog Err (Session σ) α)
    : ifOpen e m s = .fail e s := by
  simp [ifOpen, h]

theorem triple_io {D : Prop} {P : Tr σ → Prop} {m : Prog Err (Tr σ) α} {Q : α → Tr σ → Prop}
    {E : Err → Tr σ → Prop} {P' : Session σ → Prop} {Q' : α → Session σ → Prop}
    {E' : Err → Session σ → Prop} (h : Triple D P m Q E)
    (hp : ∀ s, P' s → s.trNil = false ∧ P s.tr)
    (hq : ∀ (s : Session σ) a t, P' s → Q a t → Q' a (s.setTr t))
    (he : ∀ (s : Session σ) e t, P' s → E e t → E' e (s.setTr t))
    : Triple D P' (io m) Q' E' := by
  intro s hs
  have ⟨hnil, hpre⟩ := hp s hs
  have hm := h s.tr hpre
  rw [io_run hnil]
  cases hrun : m s.tr with
  | ok a t =>
    rw [hrun] at hm
    exact hq s a t hs hm
  | fail e t =>
    rw [hrun] at hm
    exact he s e t hs hm
  | panic | stuck =>
    rw [hrun] at hm
    exact hm

theorem returns_finalizeContext {R : α → Prop} (ctx : Ctx) (err : Err)
    : Returns (finalizeContext ctx err : Prog Err (Session σ) α) R := by
  apply Returns.bind
  intro s
  split
  . exact Returns.ite (fun _ => Returns.throw _) (fun _ => Returns.bind (fun _ => Returns.throw _))
  . exact Returns.ite (fun _ => Returns.bind (fun _ => Returns.throw _)) (fun _ => Returns.throw _)

end Session

end H2Go
