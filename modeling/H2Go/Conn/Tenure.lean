import H2Go.Conn.Impl

/-!
This module contains the rules by which the connection changes hands, and the invariant that relates
its owners to what the calls are doing.
-/

namespace H2Go

namespace OwnershipEvent

def apply (e : OwnershipEvent) (os : List Owner) : List Owner :=
  match e with
  | .acquired o => o :: os
  | .passed o o' => o' :: os.erase o
  | .released o => os.erase o

def gives (o : Owner) (e : OwnershipEvent) : Bool :=
  match e with
  | .acquired o' => o' = o
  | .passed _ o' => o' = o
  | .released _ => false

def takes (o : Owner) (e : OwnershipEvent) : Bool :=
  match e with
  | .acquired _ => false
  | .passed o' _ => o' = o
  | .released o' => o' = o

end OwnershipEvent

def owners (log : List OwnershipEvent) : List Owner := log.foldl (fun os e => e.apply os) []

def gained (o : Owner) (log : List OwnershipEvent) : Nat := log.countP (OwnershipEvent.gives o)

def lost (o : Owner) (log : List OwnershipEvent) : Nat := log.countP (OwnershipEvent.takes o)

@[simp]
theorem owners_concat (log : List OwnershipEvent) (e : OwnershipEvent)
    : owners (log ++ [e]) = e.apply (owners log) := by
  simp [owners]

@[simp]
theorem gained_concat (o : Owner) (log : List OwnershipEvent) (e : OwnershipEvent)
    : gained o (log ++ [e]) = gained o log + if e.gives o then 1 else 0 := by
  simp [gained, List.countP_singleton]

@[simp]
theorem lost_concat (o : Owner) (log : List OwnershipEvent) (e : OwnershipEvent)
    : lost o (log ++ [e]) = lost o log + if e.takes o then 1 else 0 := by
  simp [lost, List.countP_singleton]

/--
The part of a connection that the ownership depends on. Rows count with their field `closed` and
their callback.
-/
structure View where
  attached : Bool
  busy : Bool
  log : List OwnershipEvent
  closing : List Nat
  rows : List (Bool × Option RowsCallback)

def Conn.view {σ : Type} (c : Conn σ) : View :=
  { attached := c.attached, busy := c.busy, log := c.log, closing := c.closing
    rows := c.rows.map (fun o => (o.rows.closed, o.callback)) }

def IsOpen (rows : List (Bool × Option RowsCallback)) (r : Nat) : Prop :=
  ∃ callback, rows[r]? = some (false, callback)

section IsOpen

variable {rows : List (Bool × Option RowsCallback)} {r : Nat}

theorem isOpen_concat (rows : List (Bool × Option RowsCallback)) (callback : Option RowsCallback)
    (r' : Nat)
    : IsOpen (rows ++ [(false, callback)]) r' ↔ IsOpen rows r' ∨ r' = rows.length := by
  grind [IsOpen]

theorem isOpen_set_closed (rows : List (Bool × Option RowsCallback)) (r : Nat)
    (callback : Option RowsCallback) (r' : Nat)
    : IsOpen (rows.set r (true, callback)) r' ↔ IsOpen rows r' ∧ r' ≠ r := by
  grind [IsOpen]

theorem isOpen_set_callback {closed : Bool} {callback : Option RowsCallback}
    (h : rows[r]? = some (closed, callback)) (callback' : Option RowsCallback) (r' : Nat)
    : IsOpen (rows.set r (closed, callback')) r' ↔ IsOpen rows r' := by
  grind [IsOpen]

theorem isOpen_iff {closed : Bool} {callback : Option RowsCallback}
    (h : rows[r]? = some (closed, callback))
    : IsOpen rows r ↔ closed = false := by
  grind [IsOpen]

end IsOpen

/--
Where a call is. `idle` is before it has acquired the connection and `ended` after it has given it up.
A call of `Rows.Close` has found the rows open (`entered`), has marked them (`closing`), has given up
their connection (`leaving`), and has returned (`done`).
-/
inductive Phase where
  | idle
  | owning
  | ended
  | entered (r : Nat)
  | closing (r : Nat)
  | leaving (r : Nat)
  | done (r : Nat)
  deriving DecidableEq

def Phase.Inside (ph : Phase) (r : Nat) : Prop := ph = .entered r ∨ ph = .closing r ∨ ph = .leaving r

/--
Some call has marked the rows `r` as closed and still has to release their connection.
-/
def Closer (ph : Nat → Phase) (r : Nat) : Prop := ∃ i, ph i = .closing r

section Closer

variable {ph : Nat → Phase} {i : Nat} {r : Nat}

theorem closer_update (h : ∀ r, ph i ≠ .closing r) (l : Phase) (r : Nat)
    : Closer (Function.update ph i l) r ↔ Closer ph r ∨ l = .closing r := by
  constructor
  . rintro ⟨j, hj⟩
    by_cases hji : j = i
    . subst hji
      exact .inr (by simpa using hj)
    . exact .inl ⟨j, by simpa [hji] using hj⟩
  . rintro (⟨j, hj⟩ | rfl)
    . have hji : j ≠ i := fun hji => h r (hji ▸ hj)
      exact ⟨j, by simpa [hji] using hj⟩
    . exact ⟨i, by simp⟩

end Closer

/--
The connection changes hands in an orderly way: nobody gives it up without owning it, and nobody owns
it twice.
-/
structure Ledger (log : List OwnershipEvent) : Prop where
  one : (owners log).length ≤ 1
  balance : ∀ o, gained o log = lost o log + (owners log).count o
  once : ∀ o, gained o log ≤ 1

namespace Ledger

variable {log : List OwnershipEvent} {o o' : Owner}

theorem owners_eq (h : Ledger log) (ho : o ∈ owners log) : owners log = [o] := by
  have hone := h.one
  cases hos : owners log with
  | nil => rw [hos] at ho; cases ho
  | cons first rest =>
    rw [hos] at hone ho
    have hnil : rest = [] := List.eq_nil_of_length_eq_zero (by simpa using hone)
    subst hnil
    rw [List.mem_singleton.mp ho]

theorem acquired (h : Ledger log) (hnone : owners log = []) (hnew : gained o log = 0)
    : Ledger (log ++ [.acquired o]) := by
  constructor
  . simp [OwnershipEvent.apply, hnone]
  . intro x
    have := h.balance x
    simp only [hnone, List.count_nil] at this
    simp only [gained_concat, lost_concat, owners_concat, OwnershipEvent.apply, hnone,
      OwnershipEvent.gives, OwnershipEvent.takes, List.count_singleton]
    grind
  . intro x
    have := h.once x
    simp only [gained_concat, OwnershipEvent.gives]
    grind

theorem passed (h : Ledger log) (ho : owners log = [o]) (hnew : gained o' log = 0)
    : Ledger (log ++ [.passed o o']) := by
  constructor
  . simp [OwnershipEvent.apply, ho]
  . intro x
    have := h.balance x
    simp only [ho, List.count_singleton] at this
    simp only [gained_concat, lost_concat, owners_concat, OwnershipEvent.apply, ho,
      OwnershipEvent.gives, OwnershipEvent.takes, List.erase_cons_head, List.count_singleton]
    grind
  . intro x
    have := h.once x
    simp only [gained_concat, OwnershipEvent.gives]
    grind

theorem released (h : Ledger log) (ho : owners log = [o]) : Ledger (log ++ [.released o]) := by
  constructor
  . simp [OwnershipEvent.apply, ho]
  . intro x
    have := h.balance x
    simp only [ho, List.count_singleton] at this
    simp only [gained_concat, lost_concat, owners_concat, OwnershipEvent.apply, ho,
      OwnershipEvent.gives, OwnershipEvent.takes, List.erase_cons_head, List.count_nil]
    grind
  . intro x
    have := h.once x
    simp only [gained_concat, OwnershipEvent.gives]
    grind

end Ledger

/--
The calls and rows that the connection should belong to.
-/
def Claims (v : View) (ph : Nat → Phase) (o : Owner) : Prop :=
  match o with
  | .call i => ph i = .owning
  | .rows r => IsOpen v.rows r ∨ Closer ph r

/--
The owners are what the calls and the rows say they are.
-/
structure Tenure (v : View) (ph : Nat → Phase) : Prop where
  ledger : Ledger v.log
  busy : v.attached = true → (v.busy = true ↔ owners v.log ≠ [])
  claims : ∀ o, o ∈ owners v.log ↔ Claims v ph o
  entered : ∀ i r, ph i = .entered r → IsOpen v.rows r
  marked : ∀ i r, ph i = .closing r → ¬ IsOpen v.rows r
  callback : ∀ r, .rows r ∈ owners v.log → ∃ closed callback, v.rows[r]? = some (closed, some callback)
  closing : ∀ i r, (ph i).Inside r → r ∈ v.closing
  alone : ∀ i j r, (ph i).Inside r → (ph j).Inside r → i = j
  ended : ∀ i r, ph i = .leaving r ∨ ph i = .done r → .rows r ∉ owners v.log ∧ r < v.rows.length
  freshCall : ∀ i, ph i = .idle → gained (.call i) v.log = 0
  freshRows : ∀ r, v.rows.length ≤ r → gained (.rows r) v.log = 0

namespace Tenure

variable {v : View} {ph : Nat → Phase} {i : Nat}

theorem congr (h : Tenure v ph) {v' : View} (hv : v' = v) : Tenure v' ph := hv ▸ h

theorem acquire (h : Tenure v ph) (hi : ph i = .idle) (hattached : v.attached = true)
    (hbusy : v.busy = false)
    : Tenure { v with busy := true, log := v.log ++ [.acquired (.call i)] }
        (Function.update ph i .owning) := by
  have hnone : owners v.log = [] := by
    by_contra hne
    have := (h.busy hattached).mpr hne
    rw [hbusy] at this
    cases this
  have hlog : owners (v.log ++ [.acquired (.call i)]) = [.call i] := by
    simp [OwnershipEvent.apply, hnone]
  have hgained : ∀ o, o ≠ .call i → gained o (v.log ++ [.acquired (.call i)]) = gained o v.log := by
    intro o ho
    simp [OwnershipEvent.gives, Ne.symm ho]
  have hnot : ∀ r, ph i ≠ .closing r := by simp [hi]
  have hcloser := closer_update hnot .owning
  have hledger := h.ledger.acquired hnone (h.freshCall i hi)
  obtain ⟨-, -, hclaims, hentered, hmarked, hcallback, hclosing, halone, hover, hcall, hrows⟩ := h
  constructor
  case ledger => exact hledger
  case busy => simp [hlog]
  case claims =>
    intro o
    have := hclaims o
    cases o <;> grind [Claims]
  all_goals grind [Phase.Inside]

theorem owners_of_owning (h : Tenure v ph) (hi : ph i = .owning) : owners v.log = [.call i] :=
  h.ledger.owners_eq ((h.claims (.call i)).mpr hi)

theorem owners_of_closing (h : Tenure v ph) {r : Nat} (hi : ph i = .closing r)
    : owners v.log = [.rows r] :=
  h.ledger.owners_eq ((h.claims (.rows r)).mpr (.inr ⟨i, hi⟩))

theorem release (h : Tenure v ph) (hi : ph i = .owning)
    : Tenure { v with busy := false, log := v.log ++ [.released (.call i)] }
        (Function.update ph i .ended) := by
  have ho := h.owners_of_owning hi
  have hlog : owners (v.log ++ [.released (.call i)]) = [] := by simp [OwnershipEvent.apply, ho]
  have hgained : ∀ x, gained x (v.log ++ [.released (.call i)]) = gained x v.log := by
    simp [OwnershipEvent.gives]
  have hnot : ∀ r, ph i ≠ .closing r := by simp [hi]
  have hcloser := closer_update hnot .ended
  have hledger := h.ledger.released ho
  obtain ⟨-, -, hclaims, hentered, hmarked, hcallback, hclosing, halone, hover, hcall, hrows⟩ := h
  constructor
  case ledger => exact hledger
  case busy => simp [hlog]
  case claims =>
    intro o
    have := hclaims o
    cases o <;> grind [Claims]
  all_goals grind [Phase.Inside]

theorem releaseRows (h : Tenure v ph) {r : Nat} (hi : ph i = .closing r)
    : Tenure { v with busy := false, log := v.log ++ [.released (.rows r)] }
        (Function.update ph i (.leaving r)) := by
  have ho := h.owners_of_closing hi
  have hlog : owners (v.log ++ [.released (.rows r)]) = [] := by simp [OwnershipEvent.apply, ho]
  have hgained : ∀ x, gained x (v.log ++ [.released (.rows r)]) = gained x v.log := by
    simp [OwnershipEvent.gives]
  have hledger := h.ledger.released ho
  obtain ⟨-, -, hclaims, hentered, hmarked, hcallback, hclosing, halone, hover, hcall, hrows⟩ := h
  have hlength : r < v.rows.length := by
    obtain ⟨_, _, hr⟩ := hcallback r (by simp [ho])
    exact (List.getElem?_eq_some_iff.mp hr).1
  -- nobody but this call was about to release the connection
  have hcloser : ∀ r', ¬ Closer (Function.update ph i (.leaving r)) r' := by
    rintro r' ⟨j, hj⟩
    by_cases hji : j = i
    . subst hji
      simp at hj
    . rw [Function.update_of_ne hji] at hj
      have hmem := (hclaims (.rows r')).mpr (.inr ⟨j, hj⟩)
      rw [ho, List.mem_singleton, Owner.rows.injEq] at hmem
      subst hmem
      exact hji (halone j i r' (.inr (.inl hj)) (.inr (.inl hi)))
  constructor
  case ledger => exact hledger
  case busy => simp [hlog]
  case claims =>
    intro o
    have := hclaims o
    cases o <;> grind [Claims]
  all_goals grind [Phase.Inside]

theorem openRows (h : Tenure v ph) (hi : ph i = .owning) (callback : RowsCallback)
    : Tenure { v with
        log := v.log ++ [.passed (.call i) (.rows v.rows.length)]
        rows := v.rows ++ [(false, some callback)] } (Function.update ph i .ended) := by
  have ho := h.owners_of_owning hi
  have hlog : owners (v.log ++ [.passed (.call i) (.rows v.rows.length)]) = [.rows v.rows.length] := by
    simp [OwnershipEvent.apply, ho]
  have hgained : ∀ o, o ≠ .rows v.rows.length →
      gained o (v.log ++ [.passed (.call i) (.rows v.rows.length)]) = gained o v.log := by
    intro o ho
    simp [OwnershipEvent.gives, Ne.symm ho]
  have hnot : ∀ r, ph i ≠ .closing r := by simp [hi]
  have hcloser := closer_update hnot .ended
  have hopen := isOpen_concat v.rows (some callback)
  have hledger := h.ledger.passed ho (h.freshRows _ (Nat.le_refl _))
  have hbusy := h.busy
  obtain ⟨-, -, hclaims, hentered, hmarked, hcallback, hclosing, halone, hover, hcall, hrows⟩ := h
  have hnone : ∀ r, ¬ Claims v ph (.rows r) := by
    intro r hr
    have := (hclaims (.rows r)).mpr hr
    simp [ho] at this
  constructor
  case ledger => exact hledger
  case busy => grind
  case claims =>
    intro o
    have := hclaims o
    cases o <;> grind [Claims]
  case marked =>
    intro j r hj
    exfalso
    refine hnone r (.inr ⟨j, ?_⟩)
    grind
  all_goals grind [Phase.Inside]

theorem detach (h : Tenure v ph) : Tenure { v with attached := false, busy := false } ph :=
  { h with busy := fun h => by cases h }

theorem not_inside (h : Tenure v ph) {r : Nat} (hnodup : (r :: v.closing).Nodup) (j : Nat)
    : ¬ (ph j).Inside r :=
  fun hj => (List.nodup_cons.mp hnodup).1 (h.closing j r hj)

theorem beginClose (h : Tenure v ph) {r : Nat} (hi : ph i = .idle ∨ ph i = .ended)
    (hnodup : (r :: v.closing).Nodup) {closed : Bool} {callback : Option RowsCallback}
    (hr : v.rows[r]? = some (closed, callback))
    : Tenure { v with closing := r :: v.closing }
        (Function.update ph i (if closed then .leaving r else .entered r)) := by
  have hinside := h.not_inside hnodup
  have hlength : r < v.rows.length := (List.getElem?_eq_some_iff.mp hr).1
  have hopen := isOpen_iff hr
  have hnot : ∀ r, ph i ≠ .closing r := by rcases hi with hi | hi <;> simp [hi]
  have hcloser := closer_update hnot (if closed then .leaving r else .entered r)
  have hnone : ¬ Closer ph r := fun ⟨j, hj⟩ => hinside j (.inr (.inl hj))
  obtain ⟨hledger, hbusy, hclaims, hentered, hmarked, hcallback, hclosing, halone, hover, hcall,
    hrows⟩ := h
  constructor
  case ledger => exact hledger
  case busy => exact hbusy
  case claims =>
    intro o
    have := hclaims o
    cases o <;> grind [Claims]
  case ended =>
    intro j r' hj
    have := hclaims (.rows r')
    grind [Claims]
  all_goals grind [Phase.Inside]

theorem markClosed (h : Tenure v ph) {r : Nat} (hi : ph i = .entered r) {closed : Bool}
    {callback : Option RowsCallback} (hr : v.rows[r]? = some (closed, callback))
    : Tenure { v with rows := v.rows.set r (true, callback) } (Function.update ph i (.closing r)) := by
  have hlength : r < v.rows.length := (List.getElem?_eq_some_iff.mp hr).1
  have hnot : ∀ r, ph i ≠ .closing r := by simp [hi]
  have hcloser := closer_update hnot (.closing r)
  have hopen := isOpen_set_closed v.rows r callback
  obtain ⟨hledger, hbusy, hclaims, hentered, hmarked, hcallback, hclosing, halone, hover, hcall,
    hrows⟩ := h
  constructor
  case ledger => exact hledger
  case busy => exact hbusy
  case claims =>
    intro o
    have := hclaims o
    cases o <;> grind [Claims]
  case entered =>
    intro j r' hj
    have hji : j ≠ i := by grind
    rw [Function.update_of_ne hji] at hj
    have hr' : r' ≠ r := fun h => hji (halone j i r (h ▸ .inl hj) (.inl hi))
    exact (hopen r').mpr ⟨hentered j r' hj, hr'⟩
  all_goals grind [Phase.Inside]

theorem clearCallback (h : Tenure v ph) {r : Nat} (hi : ph i = .leaving r) {closed : Bool}
    {callback : Option RowsCallback} (hr : v.rows[r]? = some (closed, callback))
    : Tenure { v with rows := v.rows.set r (closed, none) } ph := by
  have hopen := isOpen_set_callback hr none
  obtain ⟨hledger, hbusy, hclaims, hentered, hmarked, hcallback, hclosing, halone, hover, hcall,
    hrows⟩ := h
  constructor
  case ledger => exact hledger
  case busy => exact hbusy
  case claims =>
    intro o
    have := hclaims o
    cases o <;> grind [Claims]
  all_goals grind [Phase.Inside]

theorem endClose (h : Tenure v ph) {r : Nat} (hi : ph i = .leaving r)
    : Tenure { v with closing := v.closing.erase r } (Function.update ph i (.done r)) := by
  have hnot : ∀ r, ph i ≠ .closing r := by simp [hi]
  have hcloser := closer_update hnot (.done r)
  obtain ⟨hledger, hbusy, hclaims, hentered, hmarked, hcallback, hclosing, halone, hover, hcall,
    hrows⟩ := h
  constructor
  case ledger => exact hledger
  case busy => exact hbusy
  case claims =>
    intro o
    have := hclaims o
    cases o <;> grind [Claims]
  case closing =>
    intro j r' hj
    have hji : j ≠ i := by grind [Phase.Inside]
    rw [Function.update_of_ne hji] at hj
    have hr : r' ≠ r := fun h => hji (halone j i r (h ▸ hj) (.inr (.inr hi)))
    exact (List.mem_erase_of_ne hr).mpr (hclosing j r' hj)
  all_goals grind [Phase.Inside]

end Tenure

end H2Go
