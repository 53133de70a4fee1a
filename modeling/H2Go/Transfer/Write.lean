import H2Go.Transfer.Lemmas

/-!
This module contains the lemmas about the write side of the transfer stream: how writes are
chunked does not matter, so a program that only writes is described by the bytes it writes.
-/

namespace H2Go

open BigEndian

variable {σ : Type} {α β : Type}

namespace Tr

@[simp]
theorem accept_nil (t : Tr σ) : t.accept [] = t := by
  simp [accept]

theorem accept_append (p q : List UInt8) (t : Tr σ) : t.accept (p ++ q) = (t.accept p).accept q := by
  simp [accept]

@[simp]
theorem written_accept (p : List UInt8) (t : Tr σ) : (t.accept p).written = t.written ++ p := by
  simp [accept, written, Function.comp_def]

theorem write_of_healthy {t : Tr σ} (h : t.writeBudget = none) (p : List UInt8)
    : write p t = .ok () (t.accept p) := by
  simp [write, h]

theorem write_of_le {t : Tr σ} {n : Nat} (h : t.writeBudget = some n) {p : List UInt8}
    (hp : p.length ≤ n)
    : write p t = .ok () { t.accept p with writeBudget := some (n - p.length) } := by
  simp [write, h, hp]

theorem write_of_lt {t : Tr σ} {n : Nat} (h : t.writeBudget = some n) {p : List UInt8}
    (hp : n < p.length)
    : write p t = .fail t.writeFault.err { t.accept (p.take n) with writeBudget := some 0 } := by
  simp [write, h, Nat.not_le.mpr hp]

theorem write_append (p q : List UInt8)
    : (write (p ++ q) : Prog Err (Tr σ) _) = write p >>= fun _ => write q := by
  funext t
  rw [Prog.bind_run]
  cases hb : t.writeBudget with
  | none =>
    rw [write_of_healthy hb, write_of_healthy hb, Out.andThen_ok]
    rw [write_of_healthy (by exact hb), accept_append]
  | some n =>
    by_cases hp : p.length ≤ n
    . rw [write_of_le hb hp, Out.andThen_ok]
      by_cases hq : q.length ≤ n - p.length
      . rw [write_of_le hb (by rw [List.length_append]; omega), write_of_le rfl hq]
        rw [accept_append, List.length_append, Nat.sub_add_eq]
        rfl
      . rw [write_of_lt hb (by rw [List.length_append]; omega), write_of_lt rfl (by omega)]
        rw [List.take_append, List.take_of_length_le hp, accept_append]
        rfl
    . rw [write_of_lt hb (by rw [List.length_append]; omega), write_of_lt hb (by omega)]
      rw [List.take_append_of_le_length (by omega), Out.andThen_fail]

theorem write_nil : (write [] : Prog Err (Tr σ) _) = pure () := by
  funext t
  unfold write
  cases hb : t.writeBudget with
  | none => simp
  | some n => simp [← hb]

/--
`m` returns `a` and does to the stream what writing `bs` does, it fails exactly when that write does.
-/
structure Writes (m : Prog Err (Tr σ) α) (a : α) (bs : List UInt8) : Prop where
  ok : ∀ {t t' : Tr σ}, write bs t = .ok () t' → m t = .ok a t'
  fail : ∀ {t t' : Tr σ} {e : Err}, write bs t = .fail e t' → ∃ e', m t = .fail e' t' ∧ e'.Plain

theorem plain_of_write {bs : List UInt8} {t t' : Tr σ} {e : Err} (h : write bs t = .fail e t')
    : e.Plain := by
  unfold write at h
  split at h
  . simp at h
  . split at h
    . simp at h
    . simp only [Out.fail.injEq] at h
      rw [← h.1]
      cases t.writeFault <;> exact ⟨rfl, rfl⟩

theorem plain_write (bs : List UInt8) : FailsPlain (write bs : Prog Err (Tr σ) _) :=
  ⟨plain_of_write⟩

theorem plain_flush [Peer σ] : FailsPlain (flush : Prog Err (Tr σ) _) := by
  refine ⟨fun {t t' e} hrun => ?_⟩
  unfold flush at hrun
  split at hrun
  . simp at hrun
  . cases hrun
    cases t.writeFault <;> exact ⟨rfl, rfl⟩
  . simp at hrun

theorem write_cases (bs : List UInt8) (t : Tr σ)
    : (∃ t', write bs t = .ok () t' ∧ t'.written = t.written ++ bs)
        ∨ ∃ e t', write bs t = .fail e t' := by
  cases hb : t.writeBudget with
  | none => exact .inl ⟨_, write_of_healthy hb bs, written_accept bs t⟩
  | some n =>
    by_cases hn : bs.length ≤ n
    . exact .inl ⟨_, write_of_le hb hn, written_accept bs t⟩
    . exact .inr ⟨_, _, write_of_lt hb (by omega)⟩

namespace Writes

variable {m : Prog Err (Tr σ) α} {f : α → Prog Err (Tr σ) β} {a : α} {b : β} {bs bs' : List UInt8}

theorem write (bs : List UInt8) : Writes (Tr.write bs : Prog Err (Tr σ) _) () bs where
  ok h := h
  fail h := ⟨_, h, plain_of_write h⟩

theorem pure (a : α) : Writes (Pure.pure a : Prog Err (Tr σ) α) a [] where
  ok h := by
    rw [write_nil] at h
    simpa using h
  fail h := by
    rw [write_nil] at h
    simp at h

theorem bind (hm : Writes m a bs) (hf : Writes (f a) b bs') : Writes (m >>= f) b (bs ++ bs') where
  ok h := by
    rw [write_append] at h
    obtain ⟨_, t, h1, h2⟩ := Prog.bind_eq_ok h
    rw [Prog.bind_run, hm.ok h1]
    exact hf.ok h2
  fail h := by
    rw [write_append] at h
    rw [Prog.bind_run]
    rcases Prog.bind_eq_fail h with h1 | ⟨_, t, h1, h2⟩
    . obtain ⟨e, he, hplain⟩ := hm.fail h1
      exact ⟨e, by rw [he]; rfl, hplain⟩
    . rw [hm.ok h1]
      exact hf.fail h2

theorem written_of_ok (hm : Writes m a bs) {t t' : Tr σ} {a' : α} (h : m t = .ok a' t')
    : t'.written = t.written ++ bs := by
  rcases write_cases bs t with ⟨s, hwrite, hwritten⟩ | ⟨e, s, hwrite⟩
  . rw [hm.ok hwrite] at h
    cases h
    exact hwritten
  . obtain ⟨e', he', -⟩ := hm.fail hwrite
    rw [he'] at h
    cases h

theorem mapErr {g : Err → Err} (hg : ∀ e, e.Plain → (g e).Plain) (hm : Writes m a bs)
    : Writes (Prog.mapErr g m) a bs where
  ok h := by
    rw [Prog.mapErr_run, hm.ok h]
    rfl
  fail h := by
    obtain ⟨e, he, hplain⟩ := hm.fail h
    exact ⟨g e, by rw [Prog.mapErr_run, he]; rfl, hg e hplain⟩

end Writes

/--
`m` does to the stream what writing `bs` and flushing does, it fails exactly when that does.
-/
structure Sends [Peer σ] (m : Prog Err (Tr σ) Unit) (bs : List UInt8) : Prop where
  ok : ∀ {t t' : Tr σ}, (write bs >>= fun _ => flush) t = .ok () t' → m t = .ok () t'
  fail : ∀ {t t' : Tr σ} {e : Err}, (write bs >>= fun _ => flush) t = .fail e t' →
    ∃ e', m t = .fail e' t' ∧ e'.Plain

namespace Sends

variable [Peer σ] {m : Prog Err (Tr σ) Unit} {bs : List UInt8}

theorem flush (format : String) : Sends (wrapErr format [] Tr.flush : Prog Err (Tr σ) Unit) [] where
  ok h := by
    rw [write_nil, Prog.pure_bind] at h
    unfold wrapErr
    rw [Prog.mapErr_run, h]
    rfl
  fail h := by
    rw [write_nil, Prog.pure_bind] at h
    refine ⟨.wrapf format [] _, ?_, (plain_flush.of_run h).wrapf format []⟩
    unfold wrapErr
    rw [Prog.mapErr_run, h]
    rfl

theorem bare_flush : Sends (Tr.flush : Prog Err (Tr σ) Unit) [] where
  ok h := by rwa [write_nil, Prog.pure_bind] at h
  fail h := by
    rw [write_nil, Prog.pure_bind] at h
    exact ⟨_, h, plain_flush.of_run h⟩

theorem mapErr {g : Err → Err} (hg : ∀ e, e.Plain → (g e).Plain) (hm : Sends m bs)
    : Sends (Prog.mapErr g m) bs where
  ok h := by
    rw [Prog.mapErr_run, hm.ok h]
    rfl
  fail h := by
    obtain ⟨e, he, hplain⟩ := hm.fail h
    exact ⟨g e, by rw [Prog.mapErr_run, he]; rfl, hg e hplain⟩

theorem bind {α : Type} {m : Prog Err (Tr σ) α} {f : α → Prog Err (Tr σ) Unit} {a : α}
    {bs bs' : List UInt8} (hm : Writes m a bs) (hf : Sends (f a) bs')
    : Sends (m >>= f) (bs ++ bs') where
  ok h := by
    rw [write_append, Prog.bind_assoc] at h
    obtain ⟨_, t, h1, h2⟩ := Prog.bind_eq_ok h
    rw [Prog.bind_run, hm.ok h1]
    exact hf.ok h2
  fail h := by
    rw [write_append, Prog.bind_assoc] at h
    rw [Prog.bind_run]
    rcases Prog.bind_eq_fail h with h1 | ⟨_, t, h1, h2⟩
    . obtain ⟨e, he, hplain⟩ := hm.fail h1
      exact ⟨e, by rw [he]; rfl, hplain⟩
    . rw [hm.ok h1]
      exact hf.fail h2

theorem cases (h : Sends m bs) (hbs : bs ≠ []) (t : Tr σ)
    : (∃ budget, m t = .ok () { (t.accept bs).deliver with writeBudget := budget } ∧
          (t.writeBudget = none → budget = none)) ∨
        ∃ e t', m t = .fail e t' ∧ e.Plain ∧ t.writeBudget ≠ none := by
  cases hb : t.writeBudget with
  | none =>
    refine .inl ⟨none, h.ok ?_, fun _ => rfl⟩
    rw [Prog.bind_run, write_of_healthy hb, Out.andThen_ok]
    simp [Tr.flush, accept, deliver, hb, hbs]
  | some n =>
    by_cases hn : bs.length ≤ n
    . have hwrite := write_of_le hb hn
      cases hleft : n - bs.length with
      | zero =>
        obtain ⟨e, he, hplain⟩ := h.fail (t := t) (by
          rw [Prog.bind_run, hwrite, Out.andThen_ok, hleft]
          rfl)
        exact .inr ⟨e, _, he, hplain, by simp⟩
      | succ k =>
        refine .inl ⟨some k, h.ok ?_, by simp⟩
        rw [Prog.bind_run, hwrite, Out.andThen_ok, hleft]
        simp [Tr.flush, accept, deliver, hbs]
    . obtain ⟨e, he, hplain⟩ := h.fail (t := t) (by
        rw [Prog.bind_run, write_of_lt hb (Nat.lt_of_not_le hn)]
        rfl)
      exact .inr ⟨e, _, he, hplain, by simp⟩

theorem of_healthy (h : Sends m bs) (hbs : bs ≠ []) {t : Tr σ} (ht : t.writeBudget = none)
    : m t = .ok () (t.accept bs).deliver := by
  rcases h.cases hbs t with ⟨budget, hrun, hbudget⟩ | ⟨_, _, _, _, hne⟩
  . rw [hrun, hbudget ht, ← show (t.accept bs).deliver.writeBudget = none from ht]
  . exact absurd ht hne

end Sends

/--
`t` comes after `t0`, and all that was written in between was written after what `t0` had read.
-/
def Later (t0 t : Tr σ) : Prop :=
  t0.past.length ≤ t.past.length ∧
    ∃ w, t.writes = t0.writes ++ w ∧ ∀ x ∈ w, t0.past.length ≤ x.1

theorem Later.refl (t : Tr σ) : Later t t := ⟨Nat.le_refl _, [], by simp, by simp⟩

theorem Later.of_eq {t0 t t' : Tr σ} (h : Later t0 t) (hpast : t.past.length ≤ t'.past.length)
    (hwrites : t'.writes = t.writes)
    : Later t0 t' := by
  obtain ⟨hle, hw⟩ := h
  exact ⟨Nat.le_trans hle hpast, by rwa [hwrites]⟩

theorem Later.accept {t0 t : Tr σ} (h : Later t0 t) (bs : List UInt8) : Later t0 (t.accept bs) := by
  obtain ⟨hle, w, hw, hpos⟩ := h
  refine ⟨hle, w ++ bs.map (fun b => (t.past.length, b)), by simp [Tr.accept, hw], ?_⟩
  intro x hx
  rcases List.mem_append.mp hx with hx | hx
  . exact hpos x hx
  . obtain ⟨b, -, rfl⟩ := List.mem_map.mp hx
    exact hle

theorem keeps_later_reader {m : Prog Err (Tr σ) α} [LawfulReader m] (t0 : Tr σ)
    : Keeps (Later t0) m := by
  intro t ht
  cases hrun : m t with
  | ok a t' =>
    obtain ⟨used, rest, -, rfl, -⟩ := LawfulReader.ok_run hrun
    exact ht.of_eq (by simp [Input.move]) rfl
  | fail e t' =>
    obtain ⟨used, rest, -, rfl⟩ := LawfulReader.fail_run hrun
    exact ht.of_eq (by simp [Input.move]) rfl
  | panic | stuck => trivial

theorem keeps_later_write (t0 : Tr σ) (bs : List UInt8) : Keeps (Later t0) (write bs) := by
  intro t ht
  cases hb : t.writeBudget with
  | none =>
    rw [write_of_healthy hb]
    exact ht.accept bs
  | some n =>
    by_cases hn : bs.length ≤ n
    . rw [write_of_le hb hn]
      exact (ht.accept bs).of_eq (Nat.le_refl _) rfl
    . rw [write_of_lt hb (Nat.lt_of_not_le hn)]
      exact (ht.accept (bs.take n)).of_eq (Nat.le_refl _) rfl

theorem keeps_later_flush [Peer σ] (t0 : Tr σ) : Keeps (Later t0) (flush : Prog Err (Tr σ) _) := by
  intro t ht
  unfold flush
  split
  . split
    . exact ht
    . exact ht.of_eq (Nat.le_refl _) rfl
  . exact ht
  . split
    . exact ht
    . exact ht.of_eq (Nat.le_refl _) rfl

theorem ends_send [Peer σ] (bs : List UInt8) (t : Tr σ)
    : ((write bs >>= fun _ => flush) t).Ends := by
  apply Out.Holds.bind (R := fun _ _ => True)
  . rcases write_cases bs t with ⟨t', hrun, -⟩ | ⟨e, t', hrun⟩
    . rw [hrun]
      trivial
    . rw [hrun]
      trivial
  . intro _ t _
    unfold flush
    split <;> trivial

theorem Sends.ok_iff [Peer σ] {m : Prog Err (Tr σ) Unit} {bs : List UInt8} (h : Sends m bs)
    {t t' : Tr σ}
    : m t = .ok () t' ↔ (Tr.write bs >>= fun _ => Tr.flush) t = .ok () t' := by
  refine ⟨fun hrun => ?_, h.ok⟩
  have hends := ends_send bs t
  cases hres : (Tr.write bs >>= fun _ => Tr.flush) t with
  | ok a t1 => rwa [h.ok hres] at hrun
  | fail e t1 =>
    obtain ⟨e', he, -⟩ := h.fail hres
    rw [he] at hrun
    cases hrun
  | panic | stuck =>
    rw [hres] at hends
    exact absurd hends id

theorem Sends.keeps [Peer σ] {m : Prog Err (Tr σ) Unit} {bs : List UInt8} (h : Sends m bs)
    {P : Tr σ → Prop} (hwrite : Keeps P (Tr.write bs : Prog Err (Tr σ) _))
    (hflush : Keeps P (Tr.flush : Prog Err (Tr σ) _))
    : Keeps P m := by
  intro t ht
  have hrun := Keeps.bind hwrite (fun _ => hflush) t ht
  have hends := ends_send bs t
  cases hres : (Tr.write bs >>= fun _ => Tr.flush) t with
  | ok a t' =>
    rw [hres] at hrun
    rw [h.ok hres]
    exact hrun
  | fail e t' =>
    rw [hres] at hrun
    obtain ⟨e', he, -⟩ := h.fail hres
    rw [he]
    exact hrun
  | panic | stuck =>
    rw [hres] at hends
    exact absurd hends id

theorem writes_wrapErr {m : Prog Err (Tr σ) α} {a : α} {bs : List UInt8} (format : String)
    (args : List FmtArg) (h : Writes m a bs)
    : Writes (wrapErr format args m) a bs :=
  h.mapErr (fun _ he => he)

theorem writes_writeInt32 (x : Int) : Writes (writeInt32 x : Prog Err (Tr σ) _) () (intBytes 4 x) :=
  Writes.write _

theorem writes_writeInt64 (x : Int) : Writes (writeInt64 x : Prog Err (Tr σ) _) () (intBytes 8 x) :=
  Writes.write _

theorem writes_writeFloat64 (x : UInt64)
    : Writes (writeFloat64 x : Prog Err (Tr σ) _) () (intBytes 8 x.toNat) :=
  Writes.write _

theorem writes_writeBool (x : Bool)
    : Writes (writeBool x : Prog Err (Tr σ) _) () [if x then 1 else 0] := by
  cases x with
  | true => exact Writes.write _
  | false => exact Writes.write _

theorem writes_writeBytes (b : Option (List UInt8))
    : Writes (writeBytes b : Prog Err (Tr σ) _) () (bytesFrame b) := by
  cases b with
  | none => exact Writes.write _
  | some b => exact (Writes.write _).bind (Writes.write _)

/--
Both paths of `writeString` write the code units of the string, prefixed with their number modulo
`2 ^ 32`.
-/
theorem writeString_eq (s : GoString)
    : (writeString s : Prog Err (Tr σ) _) = write (unitsFrame (utf16Encode s)) := by
  unfold writeString unitsFrame
  split
  . next h =>
    rw [utf16Encode_of_isASCII h, List.length_map, List.flatMap_map]
    congr 3
    funext b
    have := b.toNat_lt
    have hhi : b.toNat >>> 8 = 0 := by
      rw [Nat.shiftRight_eq_div_pow]
      omega
    simp [unitBytes, hhi]
  . have hdata : (Utf8.runes s).flatMap (fun r =>
          if r < 0x10000 then
            unitBytes r
          else
            let r := r - 0x10000
            let hi := 0xD800 ||| (r >>> 10)
            let lo := 0xDC00 ||| (r &&& 0x3FF)
            [UInt8.ofNat (hi >>> 8), UInt8.ofNat hi, UInt8.ofNat (lo >>> 8), UInt8.ofNat lo])
        = (utf16Encode s).flatMap unitBytes := by
      unfold utf16Encode
      rw [List.flatMap_assoc]
      congr 1
      funext r
      unfold runeUnits
      split
      . simp
      . rfl
    rw [hdata]
    dsimp only
    rw [length_flatMap_unitBytes, Nat.mul_div_cancel_left _ (by omega)]

theorem writes_writeString (s : GoString)
    : Writes (writeString s : Prog Err (Tr σ) _) () (unitsFrame (utf16Encode s)) := by
  rw [writeString_eq]
  exact Writes.write _

end Tr

end H2Go
