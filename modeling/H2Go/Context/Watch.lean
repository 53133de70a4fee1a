import H2Go.Lib.Run

/-!
This module contains the watchers of `beginOperationContext`: a goroutine for each operation waits for
its context, and the cleanup of the operation tells it to stop without waiting for it.
-/

namespace H2Go.Context

/--
Where the watcher of an operation is. `cancelling` and `expiring` are the points before the launch of
the cancel goroutine and before the call of `SetDeadline`.
-/
inductive Watcher where
  | selecting
  | cancelling (statement : Int)
  | expiring (grace : Nat)
  | ended
  deriving DecidableEq, Repr

/--
The goroutine that runs `cancelStatement`. `ended` stands for one that got through to the server and
for one that failed on the way.
-/
inductive Canceler where
  | none
  | running (statement : Int)
  | ended
  deriving DecidableEq, Repr

/--
An operation from its `beginOperationContext` on. `ctx` is its context, `statement` what its `cancel`
callback asks the server to cancel, `none` is the nil callback. `executing` says that the server works
on its request, `stop` that the channel is closed, `returned` that the cleanup has returned.
-/
structure Operation where
  ctx : Nat
  statement : Option Int
  watcher : Watcher
  canceler : Canceler
  executing : Bool
  stop : Bool
  returned : Bool
  deriving DecidableEq, Repr

/--
What `beginOperationContext` is called with. `deadline` and `cancellable` are `ctx.Deadline()` and
`ctx.Done() != nil`.
-/
structure Call where
  ctx : Nat
  deadline : Option Nat
  cancellable : Bool
  statement : Option Int
  deriving DecidableEq, Repr

/--
A transport with the operations that were begun on it, the oldest first. `done` are the contexts that
are done.
-/
structure Transport where
  now : Nat
  deadline : Option Nat
  done : List Nat
  ops : List Operation
  deriving DecidableEq, Repr

def Transport.fresh : Transport := { now := 0, deadline := none, done := [], ops := [] }

/--
`5 * time.Second`.
-/
def cancelGracePeriod : Nat := 5000000000

/--
The atomic steps. `select` and `selectStop` are the two branches of the watcher, `setDeadline` is its
last call. `deliver` is the cancel message that reaches the server, `lose` one that does not.
`closeStop` and `resetDeadline` are the two steps of the cleanup.
-/
inductive Action where
  | begin (call : Call)
  | tick
  | fire (ctx : Nat)
  | select (i : Nat)
  | selectStop (i : Nat)
  | launch (i : Nat)
  | setDeadline (i : Nat)
  | deliver (i : Nat)
  | lose (i : Nat)
  | request (i : Nat)
  | reply (i : Nat)
  | closeStop (i : Nat)
  | resetDeadline (i : Nat)
  deriving DecidableEq, Repr

/--
The deadline that `beginOperationContext` sets, the server gets time to report a cancellation.
-/
def Call.effective (call : Call) : Option Nat :=
  call.deadline.map (fun deadline =>
    if call.statement.isSome then deadline + cancelGracePeriod else deadline)

def Call.operation (call : Call) : Operation :=
  { ctx := call.ctx, statement := call.statement
    watcher := if call.cancellable then .selecting else .ended
    canceler := .none, executing := false, stop := false, returned := false }

namespace Operation

/--
The branch `<-done` of the watcher.
-/
def wake (op : Operation) : Operation :=
  { op with
    watcher := match op.statement with
      | some statement => .cancelling statement
      | none => .expiring 0 }

/--
`go func() { _ = cancel() }()`.
-/
def launch (statement : Int) (op : Operation) : Operation :=
  { op with canceler := .running statement, watcher := .expiring cancelGracePeriod }

end Operation

namespace Transport

def setOp (i : Nat) (op : Operation) (t : Transport) : Transport := { t with ops := t.ops.set i op }

/--
Do the step `f` of the operation `i` if it is the next one.
-/
def onOp (i : Nat) (t : Transport) (f : Operation → Option Transport) : Option Transport :=
  match t.ops[i]? with
  | none => none
  | some op => f op

def step (a : Action) (t : Transport) : Option Transport :=
  match a with
  | .begin call =>
    some { t with deadline := call.effective.or t.deadline, ops := t.ops ++ [call.operation] }
  | .tick => some { t with now := t.now + 1 }
  | .fire ctx => some { t with done := ctx :: t.done }
  | .select i => t.onOp i (fun op =>
    if op.watcher = .selecting ∧ op.ctx ∈ t.done then some (t.setOp i op.wake) else none)
  | .selectStop i => t.onOp i (fun op =>
    if op.watcher = .selecting ∧ op.stop then some (t.setOp i { op with watcher := .ended })
    else none)
  | .launch i => t.onOp i (fun op =>
    match op.watcher with
    | .cancelling statement => some (t.setOp i (op.launch statement))
    | _ => none)
  | .setDeadline i => t.onOp i (fun op =>
    match op.watcher with
    | .expiring grace =>
      some { t.setOp i { op with watcher := .ended } with deadline := some (t.now + grace) }
    | _ => none)
  | .deliver i | .lose i => t.onOp i (fun op =>
    match op.canceler with
    | .running _ => some (t.setOp i { op with canceler := .ended })
    | _ => none)
  | .request i => t.onOp i (fun op =>
    if op.stop then none else some (t.setOp i { op with executing := true }))
  | .reply i => t.onOp i (fun op => some (t.setOp i { op with executing := false }))
  | .closeStop i => t.onOp i (fun op =>
    if op.stop then none else some (t.setOp i { op with stop := true }))
  | .resetDeadline i => t.onOp i (fun op =>
    if op.stop ∧ ¬ op.returned then
      some { t.setOp i { op with returned := true } with deadline := none }
    else
      none)

end Transport

/--
Nothing that the context of the operation has set off is left to do, and nothing waits for it.
-/
def Operation.Quiet (op : Operation) : Prop :=
  op.watcher = .ended ∧ ∀ statement, op.canceler ≠ .running statement

namespace Transport

def Step (a : Action) (t t' : Transport) : Prop := step a t = some t'

def runAll (as : List Action) (t : Transport) : Option Transport :=
  match as with
  | [] => some t
  | a :: as => (step a t).bind (runAll as)

theorem path_of_runAll {as : List Action} {t t' : Transport} (h : runAll as t = some t')
    : Run.Path Step as t t' := by
  induction as generalizing t with
  | nil =>
    cases h
    exact .nil _
  | cons a as ih =>
    obtain ⟨t1, hstep, hrest⟩ := Option.bind_eq_some_iff.mp h
    exact .cons hstep (ih hrest)

/--
The step is one of the watcher or the cancel goroutine of the operation `i`, and it changes the
deadline while a later operation is in progress, or cancels a later operation on the server.
-/
def Disturbs (i : Nat) (a : Action) (t t' : Transport) : Prop :=
  (a = .setDeadline i ∧ t'.deadline ≠ t.deadline ∧
    ∃ j op, i < j ∧ t.ops[j]? = some op ∧ op.returned = false) ∨
  (a = .deliver i ∧ ∃ me j op statement, t.ops[i]? = some me ∧ me.canceler = .running statement ∧
    i < j ∧ t.ops[j]? = some op ∧ op.executing = true ∧ op.statement = some statement)

/--
However the goroutines are scheduled from here on and whatever operations follow, none of them is
disturbed by the context of the operation `i`.
-/
def Isolated (i : Nat) (t : Transport) : Prop :=
  ∀ as t1 a t2, Run.Path Step as t t1 → Step a t1 t2 → ¬ Disturbs i a t1 t2

theorem onOp_eq_some {i : Nat} {t t' : Transport} {f : Operation → Option Transport}
    (h : t.onOp i f = some t')
    : ∃ op, t.ops[i]? = some op ∧ f op = some t' := by
  unfold onOp at h
  split at h
  . cases h
  . next op hop => exact ⟨op, hop, h⟩

theorem onOp_of_some {i : Nat} {t : Transport} {op : Operation} (h : t.ops[i]? = some op)
    (f : Operation → Option Transport)
    : t.onOp i f = f op := by
  rw [onOp, h]

/--
What a step does to the operations: a new one is begun, or one moves on and stays quiet if it was.
-/
theorem step_ops {a : Action} {t t' : Transport} (h : Step a t t')
    : (∃ new, t'.ops = t.ops ++ new) ∨
        ∃ k op op', t.ops[k]? = some op ∧ t'.ops = t.ops.set k op' ∧ (op.Quiet → op'.Quiet) := by
  unfold Step at h
  cases a with
  | begin call =>
    cases h
    exact .inl ⟨_, rfl⟩
  | tick | fire =>
    cases h
    exact .inl ⟨[], (List.append_nil _).symm⟩
  | select i =>
    obtain ⟨op, hop, h⟩ := onOp_eq_some h
    split at h
    . next hselect =>
      cases h
      refine .inr ⟨i, op, _, hop, rfl, fun hquiet => ?_⟩
      rw [hquiet.1] at hselect
      cases hselect.1
    . cases h
  | selectStop i =>
    obtain ⟨op, hop, h⟩ := onOp_eq_some h
    split at h
    . cases h
      exact .inr ⟨i, op, _, hop, rfl, fun hquiet => ⟨rfl, hquiet.2⟩⟩
    . cases h
  | launch i =>
    obtain ⟨op, hop, h⟩ := onOp_eq_some h
    split at h
    . next hwatcher =>
      cases h
      refine .inr ⟨i, op, _, hop, rfl, fun hquiet => ?_⟩
      rw [hquiet.1] at hwatcher
      cases hwatcher
    . cases h
  | setDeadline i =>
    obtain ⟨op, hop, h⟩ := onOp_eq_some h
    split at h
    . cases h
      exact .inr ⟨i, op, _, hop, rfl, fun hquiet => ⟨rfl, hquiet.2⟩⟩
    . cases h
  | deliver i | lose i =>
    obtain ⟨op, hop, h⟩ := onOp_eq_some h
    split at h
    . cases h
      exact .inr ⟨i, op, _, hop, rfl, fun hquiet => ⟨hquiet.1, fun _ => by simp⟩⟩
    . cases h
  | request i | closeStop i =>
    obtain ⟨op, hop, h⟩ := onOp_eq_some h
    split at h
    . cases h
    . cases h
      exact .inr ⟨i, op, _, hop, rfl, fun hquiet => hquiet⟩
  | reply i =>
    obtain ⟨op, hop, h⟩ := onOp_eq_some h
    cases h
    exact .inr ⟨i, op, _, hop, rfl, fun hquiet => hquiet⟩
  | resetDeadline i =>
    obtain ⟨op, hop, h⟩ := onOp_eq_some h
    split at h
    . cases h
      exact .inr ⟨i, op, _, hop, rfl, fun hquiet => hquiet⟩
    . cases h

def QuietAt (i : Nat) (t : Transport) : Prop := ∃ op, t.ops[i]? = some op ∧ op.Quiet

theorem quietAt_step {i : Nat} {a : Action} {t t' : Transport} (hquiet : QuietAt i t)
    (h : Step a t t')
    : QuietAt i t' := by
  obtain ⟨op, hop, hq⟩ := hquiet
  have hi : i < t.ops.length := (List.getElem?_eq_some_iff.mp hop).1
  rcases step_ops h with ⟨new, hops⟩ | ⟨k, opk, op', hk, hops, hkeeps⟩
  . exact ⟨op, by rw [hops, List.getElem?_append_left hi, hop], hq⟩
  . by_cases hki : k = i
    . subst hki
      rw [hop] at hk
      cases hk
      exact ⟨op', by rw [hops, List.getElem?_set_self hi], hkeeps hq⟩
    . exact ⟨op, by rw [hops, List.getElem?_set_ne hki, hop], hq⟩

theorem quietAt_path {i : Nat} {as : List Action} {t t' : Transport}
    (h : Run.Path Step as t t') (hquiet : QuietAt i t)
    : QuietAt i t' := by
  induction h with
  | nil => exact hquiet
  | cons hstep _ ih => exact ih (quietAt_step hquiet hstep)

theorem QuietAt.not_disturbs {i : Nat} {a : Action} {t t' : Transport} (hquiet : QuietAt i t)
    (h : Step a t t')
    : ¬ Disturbs i a t t' := by
  obtain ⟨op, hop, hwatcher, hcanceler⟩ := hquiet
  rintro (⟨rfl, -, -⟩ | ⟨rfl, me, j, later, statement, hme, hrunning, -⟩)
  . obtain ⟨op', hop', h⟩ := onOp_eq_some h
    rw [hop] at hop'
    cases hop'
    rw [hwatcher] at h
    cases h
  . rw [hop] at hme
    cases hme
    exact hcanceler statement hrunning

theorem Isolated.step {i : Nat} {a : Action} {t t' : Transport} (hisolated : Isolated i t)
    (h : Step a t t')
    : Isolated i t' := by
  intro as t1 b t2 hpath
  exact hisolated (a :: as) t1 b t2 (.cons h hpath)

theorem getElem?_begin {i : Nat} {t : Transport} {op : Operation} (hop : t.ops[i]? = some op)
    (new : Operation)
    : (t.ops ++ [new])[i]? = some op := by
  rw [List.getElem?_append_left (List.getElem?_eq_some_iff.mp hop).1, hop]

theorem getElem?_set_self_of {i : Nat} {t : Transport} {op : Operation} (hop : t.ops[i]? = some op)
    (op' : Operation)
    : (t.setOp i op').ops[i]? = some op' :=
  List.getElem?_set_self (List.getElem?_eq_some_iff.mp hop).1

/--
A watcher that is about to set the deadline sets it in the middle of an operation that has been begun
by then.
-/
theorem not_isolated_of_expiring {i : Nat} {t : Transport} {op : Operation}
    (hop : t.ops[i]? = some op) {grace : Nat} (hwatcher : op.watcher = .expiring grace)
    : ¬ Isolated i t := by
  intro hisolated
  have hi : i < t.ops.length := (List.getElem?_eq_some_iff.mp hop).1
  let call : Call :=
    { ctx := 0, deadline := some (t.now + grace + 1), cancellable := false, statement := none }
  let t1 : Transport := { t with deadline := some (t.now + grace + 1), ops := t.ops ++ [call.operation] }
  have hbegin : Step (.begin call) t t1 := rfl
  have hop1 : t1.ops[i]? = some op := getElem?_begin hop _
  have hset : Step (.setDeadline i) t1
      { t1.setOp i { op with watcher := .ended } with deadline := some (t.now + grace) } := by
    rw [Step, step, onOp_of_some hop1, hwatcher]
  refine hisolated _ t1 _ _ (.single hbegin) hset (.inl ⟨rfl, ?_, t.ops.length, call.operation, hi, ?_, rfl⟩)
  . simp [t1]
  . simp [t1]

/--
A cancel message that is on its way hits the statement when it is executed again.
-/
theorem not_isolated_of_running {i : Nat} {t : Transport} {op : Operation}
    (hop : t.ops[i]? = some op) {statement : Int} (hcanceler : op.canceler = .running statement)
    : ¬ Isolated i t := by
  intro hisolated
  have hi : i < t.ops.length := (List.getElem?_eq_some_iff.mp hop).1
  let call : Call := { ctx := 0, deadline := none, cancellable := false, statement := some statement }
  let t1 : Transport := { t with ops := t.ops ++ [call.operation] }
  let again : Operation := { call.operation with executing := true }
  let t2 : Transport := t1.setOp t.ops.length again
  have hbegin : Step (.begin call) t t1 := rfl
  have hnew : t1.ops[t.ops.length]? = some call.operation := by simp [t1]
  have hrequest : Step (.request t.ops.length) t1 t2 := by
    rw [Step, step, onOp_of_some hnew]
    rfl
  have hop2 : t2.ops[i]? = some op := by
    rw [show t2.ops = t1.ops.set t.ops.length again from rfl, List.getElem?_set_ne (Nat.ne_of_gt hi)]
    exact getElem?_begin hop _
  have hdeliver : Step (.deliver i) t2 (t2.setOp i { op with canceler := .ended }) := by
    rw [Step, step, onOp_of_some hop2, hcanceler]
  exact hisolated _ t2 _ _ (.cons hbegin (.single hrequest)) hdeliver
    (.inr ⟨rfl, op, t.ops.length, again, statement, hop2, hcanceler, hi, getElem?_set_self_of hnew again,
      rfl, rfl⟩)

theorem not_isolated_of_cancelling {i : Nat} {t : Transport} {op : Operation}
    (hop : t.ops[i]? = some op) {statement : Int} (hwatcher : op.watcher = .cancelling statement)
    : ¬ Isolated i t := by
  intro hisolated
  have hlaunch : Step (.launch i) t (t.setOp i (op.launch statement)) := by
    rw [Step, step, onOp_of_some hop, hwatcher]
  exact not_isolated_of_expiring (getElem?_set_self_of hop _) rfl (hisolated.step hlaunch)

/--
A watcher that still waits can find the context done, also when `stop` has been closed in the
meantime.
-/
theorem not_isolated_of_selecting {i : Nat} {t : Transport} {op : Operation}
    (hop : t.ops[i]? = some op) (hwatcher : op.watcher = .selecting)
    : ¬ Isolated i t := by
  intro hisolated
  let t1 : Transport := { t with done := op.ctx :: t.done }
  have hfire : Step (.fire op.ctx) t t1 := rfl
  have hop1 : t1.ops[i]? = some op := hop
  have hselect : Step (.select i) t1 (t1.setOp i op.wake) := by
    rw [Step, step, onOp_of_some hop1, if_pos ⟨hwatcher, List.mem_cons_self⟩]
  have hwoken := (hisolated.step hfire).step hselect
  have hopw := getElem?_set_self_of hop1 op.wake
  cases hstatement : op.statement with
  | none =>
    have hwake : op.wake.watcher = .expiring 0 := by rw [Operation.wake, hstatement]
    exact not_isolated_of_expiring hopw hwake hwoken
  | some statement =>
    have hwake : op.wake.watcher = .cancelling statement := by rw [Operation.wake, hstatement]
    exact not_isolated_of_cancelling hopw hwake hwoken

/--
The context of an operation leaves the operations after it alone exactly when its watcher and its
cancel goroutine have ended.
-/
theorem isolated_iff_quiet {i : Nat} {t : Transport} {op : Operation} (hop : t.ops[i]? = some op)
    : Isolated i t ↔ op.Quiet := by
  constructor
  . intro hisolated
    constructor
    . cases hwatcher : op.watcher with
      | ended => rfl
      | selecting => exact absurd hisolated (not_isolated_of_selecting hop hwatcher)
      | cancelling => exact absurd hisolated (not_isolated_of_cancelling hop hwatcher)
      | expiring => exact absurd hisolated (not_isolated_of_expiring hop hwatcher)
    . intro statement hrunning
      exact not_isolated_of_running hop hrunning hisolated
  . intro hquiet as t1 a t2 hpath hstep
    exact (quietAt_path hpath ⟨op, hop, hquiet⟩).not_disturbs hstep

theorem quietAt_begin (t : Transport) {call : Call} (h : call.cancellable = false) {t' : Transport}
    (hbegin : Step (.begin call) t t')
    : QuietAt t.ops.length t' := by
  cases hbegin
  refine ⟨call.operation, by simp, ?_, fun statement => by simp [Call.operation]⟩
  simp [Call.operation, h]

/--
After its cleanup an operation does not disturb another one exactly when its goroutines have ended by
then, and an operation under a context that is never done has none.
-/
theorem context_isolation_iff (t : Transport)
    : (∀ i op, t.ops[i]? = some op → op.returned = true → (Isolated i t ↔ op.Quiet)) ∧
      ∀ call t' bs t'', call.cancellable = false → Step (.begin call) t t' →
        Run.Path Step bs t' t'' → Isolated t.ops.length t'' := by
  constructor
  . intro i op hop _
    exact isolated_iff_quiet hop
  . intro call t' bs t'' hcall hbegin hpath
    obtain ⟨op, hop, hquiet⟩ := quietAt_path hpath (quietAt_begin t hcall hbegin)
    exact (isolated_iff_quiet hop).mpr hquiet

def promptWatcher : List Action :=
  [.begin { ctx := 1, deadline := none, cancellable := true, statement := none }, .closeStop 0,
    .selectStop 0, .resetDeadline 0]

theorem context_isolation_promptWatcher
    : ∃ t op, Run.Path Step promptWatcher Transport.fresh t ∧ t.ops[0]? = some op ∧
        op.returned = true ∧ Isolated 0 t :=
  ⟨_, _, path_of_runAll rfl, rfl, rfl,
    ((context_isolation_iff _).1 0 _ rfl rfl).mpr ⟨rfl, fun _ h => nomatch h⟩⟩

/--
The context of the first operation is done when it has returned and its watcher has not been scheduled
yet. The second operation has begun when the watcher sets the deadline.
-/
def lateWatcher : List Action :=
  [.begin { ctx := 1, deadline := none, cancellable := true, statement := none }, .closeStop 0,
    .resetDeadline 0, .fire 1, .select 0,
    .begin { ctx := 2, deadline := some 9, cancellable := false, statement := none }]

/--
The first operation gets its result while the cancel message for its statement is on the way, and the
statement is executed again.
-/
def lateCancel : List Action :=
  [.begin { ctx := 1, deadline := none, cancellable := true, statement := some 7 }, .request 0, .fire 1,
    .select 0, .launch 0, .setDeadline 0, .reply 0, .closeStop 0, .resetDeadline 0,
    .begin { ctx := 2, deadline := none, cancellable := false, statement := some 7 }, .request 1]

theorem late_context_disturbs
    : (∃ t1 t2 op, Run.Path Step lateWatcher Transport.fresh t1 ∧ Step (.setDeadline 0) t1 t2 ∧
        t1.ops[0]? = some op ∧ op.returned = true ∧ Disturbs 0 (.setDeadline 0) t1 t2) ∧
      ∃ t1 t2 op, Run.Path Step lateCancel Transport.fresh t1 ∧ Step (.deliver 0) t1 t2 ∧
        t1.ops[0]? = some op ∧ op.returned = true ∧ Disturbs 0 (.deliver 0) t1 t2 := by
  constructor
  . refine ⟨_, _, _, path_of_runAll rfl, rfl, rfl, rfl, .inl ⟨rfl, ?_, 1, _, Nat.zero_lt_one, rfl, rfl⟩⟩
    decide
  . exact ⟨_, _, _, path_of_runAll rfl, rfl, rfl, rfl,
      .inr ⟨rfl, _, 1, _, 7, rfl, rfl, Nat.zero_lt_one, rfl, rfl, rfl⟩⟩

end Transport

end H2Go.Context
