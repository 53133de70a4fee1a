import H2Go.DSN.Spellings

/-!
This module contains what of a DSN depends on the order in which Go visits maps.
-/

namespace H2Go

open Digits Strings Utf8 ExceptLemmas

section Bytes

theorem bytesLe_total (s t : GoString) : bytesLe s t || bytesLe t s := by
  induction s generalizing t with
  | nil => rfl
  | cons a s ih =>
    cases t with
    | nil => rfl
    | cons b t =>
      have := ih t
      have hab : a.toNat < b.toNat ∨ a = b ∨ b.toNat < a.toNat := by
        rw [← UInt8.toNat_inj]
        omega
      simp only [bytesLe, Bool.or_eq_true, Bool.and_eq_true, decide_eq_true_eq] at this ⊢
      rcases hab with h | rfl | h
      . exact .inl (.inl h)
      . exact this.imp (fun h => .inr ⟨rfl, h⟩) (fun h => .inr ⟨rfl, h⟩)
      . exact .inr (.inl h)

theorem bytesLe_trans {s t u : GoString} (h : bytesLe s t = true) (h' : bytesLe t u = true)
    : bytesLe s u = true := by
  induction s generalizing t u with
  | nil => rfl
  | cons a s ih =>
    cases t with
    | nil => cases h
    | cons b t =>
      cases u with
      | nil => cases h'
      | cons c u =>
        simp only [bytesLe, Bool.or_eq_true, Bool.and_eq_true, decide_eq_true_eq] at h h' ⊢
        rcases h with h | ⟨rfl, h⟩
        . rcases h' with h' | ⟨rfl, -⟩
          . exact .inl (by omega)
          . exact .inl h
        . rcases h' with h' | ⟨rfl, h'⟩
          . exact .inl h'
          . exact .inr ⟨rfl, ih h h'⟩

theorem bytesLe_antisymm {s t : GoString} (h : bytesLe s t = true) (h' : bytesLe t s = true) : s = t := by
  induction s generalizing t with
  | nil =>
    cases t with
    | nil => rfl
    | cons b t => cases h'
  | cons a s ih =>
    cases t with
    | nil => cases h
    | cons b t =>
      simp only [bytesLe, Bool.or_eq_true, Bool.and_eq_true, decide_eq_true_eq] at h h'
      rcases h with h | ⟨rfl, h⟩
      . rcases h' with h' | ⟨rfl, -⟩ <;> omega
      . rcases h' with h' | ⟨-, h'⟩
        . omega
        . rw [ih h h']

end Bytes

section Properties

variable [UnicodeTables]

def forwarded (params : Params) : Params := (upperKeys params).filter (fun x => x.1 ∈ forwardSettings)

theorem mem_forwarded {params : Params} {x : GoString × GoString}
    : x ∈ forwarded params ↔
      ∃ kv ∈ params, toUpper kv.1 ∈ forwardSettings ∧ x = (toUpper kv.1, kv.2) := by
  rw [forwarded, List.mem_filter, mem_upperKeys, decide_eq_true_iff]
  constructor
  . rintro ⟨⟨kv, hkv, rfl⟩, hfwd⟩
    exact ⟨kv, hkv, hfwd, rfl⟩
  . rintro ⟨kv, hkv, hfwd, rfl⟩
    exact ⟨⟨kv, hkv, rfl⟩, hfwd⟩

theorem sessionPropertyMap_eq (o : MapOrder) (params : Params)
    : sessionPropertyMap o params
      = (forwarded (o.range params)).mergeSort (fun a b => bytesLe a.1 b.1) := by
  unfold sessionPropertyMap forwarded
  dsimp only
  congr 1
  induction o.range params with
  | nil => rfl
  | cons kv params ih =>
    rw [List.filterMap_cons, upperKeys_cons]
    by_cases hfwd : toUpper kv.1 ∈ forwardSettings
    . have hne : toUpper kv.1 ≠ ascii "IGNORE_UNKNOWN_SETTINGS" := by
        intro h
        rw [h] at hfwd
        exact absurd hfwd (by decide)
      rw [if_neg hne, if_pos hfwd, List.filter_cons_of_pos (by simpa using hfwd), ih]
    . rw [if_neg hfwd, ite_self, List.filter_cons_of_neg (by simpa using hfwd), ih]

theorem sessionPropertyMap_perm (o : MapOrder) (params : Params)
    : (sessionPropertyMap o params).Perm (forwarded params) := by
  rw [sessionPropertyMap_eq]
  refine (List.mergeSort_perm _ _).trans ?_
  exact ((o.perm params).map _).filter _

theorem sessionPropertyMap_sorted (o : MapOrder) (params : Params)
    : (sessionPropertyMap o params).Pairwise (fun a b => bytesLe a.1 b.1 = true) := by
  rw [sessionPropertyMap_eq]
  apply List.pairwise_mergeSort
  . intro a b c
    exact bytesLe_trans
  . intro a b
    exact bytesLe_total a.1 b.1

theorem sessionPropertyMap_of_sorted (o : MapOrder) (params : Params)
    (h : (forwarded (o.range params)).Pairwise (fun a b => bytesLe a.1 b.1 = true))
    : sessionPropertyMap o params = forwarded (o.range params) := by
  rw [sessionPropertyMap_eq]
  exact List.mergeSort_of_pairwise h

/--
Settings with the same entries are sent as the same list, if no key occurs twice.
-/
theorem sessionPropertyMap_congr {params params' : Params} (hnodup : ((forwarded params).map Prod.fst).Nodup)
    (hnodup' : ((forwarded params').map Prod.fst).Nodup)
    (h : ∀ x, x ∈ forwarded params ↔ x ∈ forwarded params') (o o' : MapOrder)
    : sessionPropertyMap o params = sessionPropertyMap o' params' := by
  have hperm : (sessionPropertyMap o params).Perm (sessionPropertyMap o' params') := by
    refine (sessionPropertyMap_perm o params).trans (.trans ?_ (sessionPropertyMap_perm o' params').symm)
    exact (List.perm_ext_iff_of_nodup hnodup.of_map hnodup'.of_map).mpr h
  refine hperm.eq_of_pairwise ?_ (sessionPropertyMap_sorted o params)
    (sessionPropertyMap_sorted o' params')
  intro x y hx hy hxy hyx
  have hx' := (sessionPropertyMap_perm o params).mem_iff.mp hx
  have hy' := (h y).mpr ((sessionPropertyMap_perm o' params').mem_iff.mp hy)
  exact List.inj_on_of_nodup_map hnodup hx' hy' (bytesLe_antisymm hxy hyx)

end Properties

section Checks

variable [UnicodeTables]

/--
However one spelling of each setting is chosen and visited, it passes the checks. Every timeout is a
number. For a setting that is not known there is another one that is to ignore it in all its
spellings, and whatever may be chosen besides it agrees.
-/
structure AllPass (spellings : Params) : Prop where
  timeouts : TimeoutsOK spellings
  ignored : ∀ u ∈ spellings, recognized (toUpper u.1) = false →
    (∃ x ∈ spellings, equalFold x.1 u.1 = false ∧ ∀ y ∈ spellings, equalFold y.1 x.1 = true →
      toUpper y.1 = ascii "IGNORE_UNKNOWN_SETTINGS") ∧
    ∀ x ∈ spellings, toUpper x.1 = ascii "IGNORE_UNKNOWN_SETTINGS" → equalFold x.1 u.1 = false →
      isTruthy x.2 = true

omit [UnicodeTables] in
theorem recognized_ignore : recognized (ascii "IGNORE_UNKNOWN_SETTINGS") = true := by decide

theorem AllPass.alwaysPasses {spellings kept : Params} (h : AllPass spellings)
    (hkept : Spelling spellings kept)
    : AlwaysPasses kept := by
  refine ⟨fun kv hkv => h.timeouts kv (hkept.mem kv hkv), ?_⟩
  by_cases hall : ∀ kv ∈ kept, recognized (toUpper kv.1) = true
  . exact .inl hall
  . simp only [not_forall, Bool.not_eq_true] at hall
    obtain ⟨u, hu, hunknown⟩ := hall
    obtain ⟨⟨x, hx, -, hclass⟩, htrue⟩ := h.ignored u (hkept.mem u hu) hunknown
    refine .inr ⟨?_, fun y hy hkey => htrue y (hkept.mem y hy) hkey ?_⟩
    . obtain ⟨y, hy, hlike⟩ := hkept.covers x hx
      exact ⟨y, hy, hclass y (hkept.mem y hy) hlike⟩
    . -- a choice has one spelling of each setting, so it is not another spelling of `u`
      by_contra hlike
      cases hkept.unlike.eq_of_like hy hu (Bool.not_eq_false _ ▸ hlike)
      rw [hkey, recognized_ignore] at hunknown
      cases hunknown

theorem unlike_pair {x y : GoString × GoString} (h : equalFold x.1 y.1 = false) : Unlike [x, y] := by
  have hne : foldKey x.1 ≠ foldKey y.1 := by
    rw [Ne, ← equalFold_iff, h]
    exact Bool.false_ne_true
  simp [Unlike, hne]

/--
A choice without the setting that ignores unknown ones, unless it has no other spelling.
-/
theorem exists_spelling_unignored {spellings : Params} {u : GoString × GoString} (hu : u ∈ spellings)
    (hunknown : recognized (toUpper u.1) = false)
    (hother : ∀ x ∈ spellings, equalFold x.1 u.1 = false → ∃ y ∈ spellings, equalFold y.1 x.1 = true ∧
      toUpper y.1 ≠ ascii "IGNORE_UNKNOWN_SETTINGS")
    : ∃ kept, Spelling spellings kept ∧ u ∈ kept ∧
        ∀ x ∈ kept, toUpper x.1 ≠ ascii "IGNORE_UNKNOWN_SETTINGS" := by
  let chosen := u :: spellings.filter (fun x => toUpper x.1 ≠ ascii "IGNORE_UNKNOWN_SETTINGS")
  have hmem : ∀ x ∈ chosen, x ∈ spellings := by
    intro x hx
    rcases List.mem_cons.mp hx with rfl | hx
    . exact hu
    . exact List.mem_of_mem_filter hx
  have hfree : ∀ x ∈ chosen, toUpper x.1 ≠ ascii "IGNORE_UNKNOWN_SETTINGS" := by
    intro x hx
    rcases List.mem_cons.mp hx with rfl | hx
    . intro hkey
      rw [hkey, recognized_ignore] at hunknown
      cases hunknown
    . exact of_decide_eq_true (List.mem_filter.mp hx).2
  have hcovered : ∀ x ∈ spellings, ∃ y ∈ chosen, equalFold y.1 x.1 = true := by
    intro x hx
    cases hlike : equalFold x.1 u.1 with
    | true => exact ⟨u, List.mem_cons_self, equalFold_symm hlike⟩
    | false =>
      obtain ⟨y, hy, hyx, hkey⟩ := hother x hx hlike
      exact ⟨y, List.mem_cons_of_mem _ (List.mem_filter.mpr ⟨hy, decide_eq_true hkey⟩), hyx⟩
  refine ⟨_, spelling_of_chosen hmem, ?_, ?_⟩
  . exact subset_firstSpellings_append [u] _ u (List.mem_singleton_self u)
  . rw [firstSpellings_append hcovered]
    exact fun x hx => hfree x ((spelling_firstSpellings chosen).mem x hx)

theorem allPass_iff (spellings : Params)
    : AllPass spellings ↔ ∀ kept, Spelling spellings kept → AlwaysPasses kept := by
  refine ⟨fun h kept => h.alwaysPasses, fun h => ⟨fun kv hkv => ?_, fun u hu hunknown => ?_⟩⟩
  . obtain ⟨kept, hkept, hmem⟩ := exists_spelling spellings [kv] (List.nodup_singleton _)
      (by simpa using hkv)
    exact (h kept hkept).1 kv (hmem kv (List.mem_singleton_self kv))
  . -- a choice with `u` does not pass because all of its settings are known
    have hsome : ∀ kept, Spelling spellings kept → u ∈ kept →
        (∃ kv ∈ kept, toUpper kv.1 = ascii "IGNORE_UNKNOWN_SETTINGS") ∧
          ∀ kv ∈ kept, toUpper kv.1 = ascii "IGNORE_UNKNOWN_SETTINGS" → isTruthy kv.2 = true := by
      intro kept hkept hmem
      rcases (h kept hkept).2 with hall | hignore
      . rw [hall u hmem] at hunknown
        cases hunknown
      . exact hignore
    refine ⟨?_, fun x hx hkey hlike => ?_⟩
    . by_contra hnone
      obtain ⟨kept, hkept, hmem, hfree⟩ := exists_spelling_unignored hu hunknown (by
        intro x hx hlike
        by_contra hclass
        refine hnone ⟨x, hx, hlike, fun y hy hyx => ?_⟩
        by_contra hkey
        exact hclass ⟨y, hy, hyx, hkey⟩)
      obtain ⟨⟨kv, hkv, hkey⟩, -⟩ := hsome kept hkept hmem
      exact hfree kv hkv hkey
    . obtain ⟨kept, hkept, hmem⟩ := exists_spelling spellings [x, u] (unlike_pair hlike)
        (by simp [hx, hu])
      exact (hsome kept hkept (hmem u (by simp))).2 x (hmem x (by simp)) hkey

end Checks

section Main

variable [UnicodeTables]

/--
Neither the decision about a DSN nor the properties that are sent for it depend on the order of maps.
The properties are the forwarded settings that the DSN carries, each of them once and sorted.
-/
structure OrderFree (input : GoString) : Prop where
  decision : ∀ o o', (∃ cfg, parseDSN o input = .ok cfg) → ∃ cfg, parseDSN o' input = .ok cfg
  properties : ∀ o o' q q' cfg cfg', parseDSN o input = .ok cfg → parseDSN o' input = .ok cfg' →
    sessionPropertyMap q cfg.params = sessionPropertyMap q' cfg'.params
  increasing : ∀ o q cfg, parseDSN o input = .ok cfg →
    (sessionPropertyMap q cfg.params).Pairwise (fun a b => bytesLe a.1 b.1 = true ∧ a.1 ≠ b.1)
  exact : ∀ o q cfg, parseDSN o input = .ok cfg → ∀ x, x ∈ sessionPropertyMap q cfg.params ↔
    ∃ kv ∈ carried input, toUpper kv.1 ∈ forwardSettings ∧ x = (toUpper kv.1, kv.2)

/--
The spellings that the parser may keep leave no choice that matters. They pass the checks, those of
them that are forwarded are the same in upper case exactly when they are the same up to case, and they
are the forwarded settings that the DSN carries.
-/
structure Clear (carried spellings : Params) : Prop where
  passes : AllPass spellings
  same_case : ∀ x ∈ spellings, ∀ y ∈ spellings, toUpper x.1 ∈ forwardSettings →
    (equalFold x.1 y.1 = true ↔ toUpper x.1 = toUpper y.1)
  lossless : ∀ kv ∈ carried, toUpper kv.1 ∈ forwardSettings →
    (toUpper kv.1, kv.2) ∈ upperKeys spellings
  genuine : ∀ kv ∈ spellings, toUpper kv.1 ∈ forwardSettings →
    (toUpper kv.1, kv.2) ∈ upperKeys carried

structure SentFor (carried kept : Params) : Prop where
  nodup : ((forwarded kept).map Prod.fst).Nodup
  mem_iff : ∀ x, x ∈ forwarded kept ↔
    ∃ kv ∈ carried, toUpper kv.1 ∈ forwardSettings ∧ x = (toUpper kv.1, kv.2)

theorem nodup_forwarded_iff {kept : Params} (hkept : Unlike kept)
    : ((forwarded kept).map Prod.fst).Nodup ↔ ∀ x ∈ kept, ∀ y ∈ kept,
        toUpper x.1 ∈ forwardSettings → toUpper x.1 = toUpper y.1 → x = y := by
  have hmap : (forwarded kept).map Prod.fst
      = (kept.filter (fun kv => toUpper kv.1 ∈ forwardSettings)).map (fun kv => toUpper kv.1) := by
    rw [forwarded, upperKeys, List.filter_map, List.map_map]
    rfl
  rw [hmap]
  constructor
  . intro h x hx y hy hfwd hxy
    exact List.inj_on_of_nodup_map h (List.mem_filter.mpr ⟨hx, decide_eq_true hfwd⟩)
      (List.mem_filter.mpr ⟨hy, decide_eq_true (hxy ▸ hfwd)⟩) hxy
  . intro h
    refine List.Nodup.map_on ?_ (hkept.of_map.filter _)
    intro x hx y hy hxy
    obtain ⟨hx, hfwd⟩ := List.mem_filter.mp hx
    exact h x hx y (List.mem_of_mem_filter hy) (of_decide_eq_true hfwd) hxy

theorem Clear.sends {carried settings spellings kept : Params} (h : Clear carried spellings)
    (hmem : ∀ x ∈ spellings, x ∈ settings) (hclash : Unclashed settings)
    (hkept : Spelling spellings kept)
    : SentFor carried kept where
  nodup := by
    rw [nodup_forwarded_iff hkept.unlike]
    intro x hx y hy hfwd hxy
    exact hkept.unlike.eq_of_like hx hy
      ((h.same_case x (hkept.mem x hx) y (hkept.mem y hy) hfwd).mpr hxy)
  mem_iff x := by
    rw [mem_forwarded]
    constructor
    . rintro ⟨kv, hkv, hfwd, rfl⟩
      obtain ⟨kv', hkv', heq⟩ := mem_upperKeys.mp (h.genuine kv (hkept.mem kv hkv) hfwd)
      exact ⟨kv', hkv', (Prod.mk.inj heq).1 ▸ hfwd, heq.symm⟩
    . rintro ⟨kv, hkv, hfwd, rfl⟩
      obtain ⟨y, hy, heq⟩ := mem_upperKeys.mp (h.lossless kv hkv hfwd)
      obtain ⟨hkey, hval⟩ := Prod.mk.inj heq
      -- the spelling that is kept of it has the same key and the same value
      obtain ⟨z, hz, hlike⟩ := hkept.covers y hy
      have hz' := hkept.mem z hz
      have hupper := (h.same_case y hy z hz' (hkey ▸ hfwd)).mp (equalFold_symm hlike)
      refine ⟨z, hz, by rwa [← hupper, hkey], ?_⟩
      rw [← hupper, hkey, hclash z (hmem z hz') y (hmem y hy) hlike, hval]

theorem Clear.orderFree {input : GoString}
    (h : ∀ settings spellings, Reads input settings spellings → Unclashed settings →
      (∃ kept, Spelling spellings kept ∧ ValidSettings (upperKeys kept)) → Clear (carried input) spellings)
    : OrderFree input := by
  -- an accepted DSN is clear, and what is sent for it is known
  have hclear : ∀ {o cfg}, parseDSN o input = .ok cfg → ∃ settings spellings,
      Reads input settings spellings ∧ Unclashed settings ∧ Clear (carried input) spellings ∧
        SentFor (carried input) cfg.params := by
    intro o cfg hcfg
    obtain ⟨settings, spellings, hreads, hkept, hclash, -⟩ := Reads.of_parseDSN hcfg
    have hclear := h _ _ hreads hclash ((hreads.accepted_iff hclash).mp ⟨o, cfg, hcfg⟩)
    exact ⟨settings, spellings, hreads, hclash, hclear, hclear.sends hreads.mem hclash hkept⟩
  constructor
  . rintro o o' ⟨cfg, hcfg⟩
    obtain ⟨settings, spellings, hreads, hclash, hclear, -⟩ := hclear hcfg
    exact hreads.accepted hclash (fun _ => hclear.passes.alwaysPasses) o'
  . intro o o' q q' cfg cfg' hcfg hcfg'
    obtain ⟨-, -, -, -, -, hsends⟩ := hclear hcfg
    obtain ⟨-, -, -, -, -, hsends'⟩ := hclear hcfg'
    exact sessionPropertyMap_congr hsends.nodup hsends'.nodup
      (fun x => (hsends.mem_iff x).trans (hsends'.mem_iff x).symm) q q'
  . intro o q cfg hcfg
    obtain ⟨-, -, -, -, -, hsends⟩ := hclear hcfg
    have hnodup : ((sessionPropertyMap q cfg.params).map Prod.fst).Nodup :=
      ((sessionPropertyMap_perm q cfg.params).map _).nodup_iff.mpr hsends.nodup
    exact (sessionPropertyMap_sorted q cfg.params).and (List.pairwise_map.mp hnodup)
  . intro o q cfg hcfg x
    obtain ⟨-, -, -, -, -, hsends⟩ := hclear hcfg
    rw [(sessionPropertyMap_perm q cfg.params).mem_iff]
    exact hsends.mem_iff x

theorem OrderFree.sends {input : GoString} (hfree : OrderFree input)
    (haccepted : ∃ o cfg, parseDSN o input = .ok cfg) {settings spellings kept : Params}
    (hreads : Reads input settings spellings) (hclash : Unclashed settings)
    (hkept : Spelling spellings kept)
    : AlwaysPasses kept ∧ SentFor (carried input) kept := by
  obtain ⟨o, cfg, hcfg⟩ := haccepted
  have hpasses : ∀ visited, visited.Perm kept → Passes visited := by
    intro visited hperm
    obtain ⟨o', hpass, -⟩ := hreads.exists_order hclash hkept hperm
    obtain ⟨cfg', hcfg'⟩ := hfree.decision o o' ⟨cfg, hcfg⟩
    exact hpass cfg' hcfg'
  obtain ⟨o', -, haccept⟩ := hreads.exists_order hclash hkept (List.Perm.refl kept)
  obtain ⟨cfg', hcfg', hperm⟩ := haccept (hpasses kept (List.Perm.refl _))
  have hsent : (sessionPropertyMap o' cfg'.params).Perm (forwarded kept) :=
    (sessionPropertyMap_perm o' cfg'.params).trans ((hperm.map _).filter _)
  refine ⟨(alwaysPasses_iff kept).mpr hpasses, ?_, fun x => ?_⟩
  . refine (hsent.map Prod.fst).nodup_iff.mp (List.pairwise_map.mpr ?_)
    exact (hfree.increasing o' o' cfg' hcfg').imp (fun h => h.2)
  . rw [← hsent.mem_iff]
    exact hfree.exact o' o' cfg' hcfg' x

theorem clear_of_sends {carried spellings : Params}
    (h : ∀ kept, Spelling spellings kept → AlwaysPasses kept ∧ SentFor carried kept)
    : Clear carried spellings := by
  have hnodup : ∀ {x y}, x ∈ spellings → y ∈ spellings → toUpper x.1 ∈ forwardSettings →
      toUpper x.1 = toUpper y.1 → equalFold x.1 y.1 = true := by
    intro x y hx hy hfwd hxy
    by_contra hlike
    obtain ⟨kept, hkept, hmem⟩ := exists_spelling spellings [x, y]
      (unlike_pair (Bool.not_eq_true _ ▸ hlike : equalFold x.1 y.1 = false)) (by simp [hx, hy])
    have heq := (nodup_forwarded_iff hkept.unlike).mp (h kept hkept).2.nodup x (hmem x (by simp)) y
      (hmem y (by simp)) hfwd hxy
    exact hlike (heq ▸ equalFold_refl _)
  have hgenuine : ∀ x ∈ spellings, toUpper x.1 ∈ forwardSettings →
      ∃ kv ∈ carried, toUpper kv.1 ∈ forwardSettings ∧ (toUpper x.1, x.2) = (toUpper kv.1, kv.2) := by
    intro x hx hfwd
    obtain ⟨kept, hkept, hmem⟩ := exists_spelling spellings [x] (List.nodup_singleton _)
      (by simpa using hx)
    exact ((h kept hkept).2.mem_iff _).mp (mem_forwarded.mpr ⟨x, hmem x (by simp), hfwd, rfl⟩)
  refine ⟨(allPass_iff _).mpr (fun kept hkept => (h kept hkept).1), ?_, ?_, ?_⟩
  . intro x hx y hy hfwd
    refine ⟨fun hlike => ?_, hnodup hx hy hfwd⟩
    -- in a choice with `y` the key of `x` comes from another setting, which may be chosen with `x` too
    obtain ⟨kept, hkept, hmem⟩ := exists_spelling spellings [y] (List.nodup_singleton _)
      (by simpa using hy)
    obtain ⟨z, hz, -, heq⟩ := mem_forwarded.mp
      (((h kept hkept).2.mem_iff _).mpr (hgenuine x hx hfwd))
    have hxz := (Prod.mk.inj heq).1
    have hlike' := equalFold_trans (equalFold_symm hlike) (hnodup hx (hkept.mem z hz) hfwd hxz)
    rw [hxz, hkept.unlike.eq_of_like (hmem y (by simp)) hz hlike']
  . intro kv hkv hfwd
    have hkept := spelling_firstSpellings spellings
    obtain ⟨x, hx, -, heq⟩ := mem_forwarded.mp
      (((h _ hkept).2.mem_iff _).mpr ⟨kv, hkv, hfwd, rfl⟩)
    exact mem_upperKeys.mpr ⟨x, hkept.mem x hx, heq.symm⟩
  . intro x hx hfwd
    obtain ⟨kv, hkv, -, heq⟩ := hgenuine x hx hfwd
    exact mem_upperKeys.mpr ⟨kv, hkv, heq.symm⟩

/--
Maps make no difference, and the forwarded settings of the DSN are sent, exactly when no choice of
spellings passes the checks or the spellings are clear.
-/
theorem orderFree_iff (input : GoString)
    : OrderFree input ↔ ∀ settings spellings, Reads input settings spellings → Unclashed settings →
        (∃ kept, Spelling spellings kept ∧ ValidSettings (upperKeys kept)) →
        Clear (carried input) spellings := by
  constructor
  . intro hfree settings spellings hreads hclash hvalid
    have haccepted := (hreads.accepted_iff hclash).mpr hvalid
    exact clear_of_sends (fun _ => hfree.sends haccepted hreads hclash)
  . exact Clear.orderFree

/--
The two ways to ignore the case agree on the keys.
-/
def SameCase (settings : Params) : Prop :=
  ∀ x ∈ settings, ∀ y ∈ settings, equalFold x.1 y.1 = true ↔ toUpper x.1 = toUpper y.1

theorem sameCase_of_ascii {settings : Params} (h : ASCIIKeys settings) : SameCase settings :=
  fun x hx y hy => equalFold_iff_toUpper (h x hx) (h y hy)

theorem allPass_of_sameCase {settings spellings kept : Params} (hcase : SameCase spellings)
    (hmem : ∀ x ∈ spellings, x ∈ settings) (hclash : Unclashed settings)
    (hkept : Spelling spellings kept) (hvalid : ValidSettings (upperKeys kept))
    : AllPass spellings := by
  -- every spelling has the upper case and the value of the one that is kept
  have hupper : ∀ x ∈ spellings, ∃ y ∈ kept, toUpper y.1 = toUpper x.1 ∧ y.2 = x.2 := by
    intro x hx
    obtain ⟨y, hy, hlike⟩ := hkept.covers x hx
    have hy' := hkept.mem y hy
    exact ⟨y, hy, (hcase y hy' x hx).mp hlike, hclash y (hmem y hy') x (hmem x hx) hlike⟩
  constructor
  . intro x hx hkey
    obtain ⟨y, hy, hyx, hval⟩ := hupper x hx
    rw [← hval]
    exact hvalid.1 (toUpper y.1, y.2) (mem_upperKeys_of_mem hy) (hyx.trans hkey)
  . intro u hu hunknown
    have hne : ∀ {x : GoString × GoString}, x ∈ spellings →
        toUpper x.1 = ascii "IGNORE_UNKNOWN_SETTINGS" → equalFold x.1 u.1 = false := by
      intro x hx hkey
      by_contra hlike
      rw [← (hcase x hx u hu).mp (Bool.not_eq_false _ ▸ hlike), hkey, recognized_ignore] at hunknown
      cases hunknown
    obtain ⟨v, hv, hvu, -⟩ := hupper u hu
    rcases hvalid.2 with hall | ⟨upper, hupper, hkey, htrue⟩
    . have hrecognized := hall _ (mem_upperKeys_of_mem hv)
      dsimp only at hrecognized
      rw [hvu, hunknown] at hrecognized
      cases hrecognized
    . obtain ⟨x, hx, rfl⟩ := mem_upperKeys.mp hupper
      have hx' := hkept.mem x hx
      refine ⟨⟨x, hx', hne hx' hkey, fun y hy hyx => ((hcase y hy x hx').mp hyx).trans hkey⟩, ?_⟩
      intro y hy hkey' _
      have hlike := (hcase x hx' y hy).mpr (hkey.trans hkey'.symm)
      rw [← hclash x (hmem x hx') y (hmem y hy) hlike]
      exact htrue

/--
For such keys, those in ASCII for one, what is left to ask is that the parser neither loses nor changes
a forwarded setting.
-/
theorem clear_iff_of_sameCase {carried settings spellings kept : Params} (hcase : SameCase spellings)
    (hmem : ∀ x ∈ spellings, x ∈ settings) (hclash : Unclashed settings)
    (hkept : Spelling spellings kept) (hvalid : ValidSettings (upperKeys kept))
    : Clear carried spellings ↔ ∀ x, x ∈ forwarded spellings ↔ x ∈ forwarded carried := by
  have hforwarded : ∀ {settings : Params} {kv : GoString × GoString}, toUpper kv.1 ∈ forwardSettings →
      ((toUpper kv.1, kv.2) ∈ forwarded settings ↔ (toUpper kv.1, kv.2) ∈ upperKeys settings) := by
    intro settings kv hfwd
    rw [forwarded, List.mem_filter]
    exact and_iff_left (decide_eq_true hfwd)
  constructor
  . intro h x
    constructor <;> intro hx <;> obtain ⟨kv, hkv, hfwd, rfl⟩ := mem_forwarded.mp hx
    . exact (hforwarded hfwd).mpr (h.genuine kv hkv hfwd)
    . exact (hforwarded hfwd).mpr (h.lossless kv hkv hfwd)
  . intro h
    refine ⟨allPass_of_sameCase hcase hmem hclash hkept hvalid,
      fun x hx y hy _ => hcase x hx y hy, fun kv hkv hfwd => ?_, fun kv hkv hfwd => ?_⟩
    . exact (hforwarded hfwd).mp ((h _).mpr (mem_forwarded.mpr ⟨kv, hkv, hfwd, rfl⟩))
    . exact (hforwarded hfwd).mp ((h _).mp (mem_forwarded.mpr ⟨kv, hkv, hfwd, rfl⟩))

end Main

section

/--
The letters outside of ASCII that are mapped to ASCII letters: the dotless i and the long s by their
upper case, the long s and the Kelvin sign by case folding. The dotless i is folded to itself only.
-/
@[reducible]
def latinCases : UnicodeTables where
  upper r := if r = 0x131 then 0x49 else if r = 0x17F then 0x53 else r
  fold r := if r = 0x17F then 0x73 else if r = 0x212A then 0x6B else r

def MapOrder.reversed : MapOrder where
  range m := m.reverse
  perm m := List.reverse_perm m

/--
A setting `INIT` and one that is spelled with a dotless i are both kept and sent as `INIT`.
-/
def dotlessDSN : GoString := ascii "h2://h:1/d?INIT=a&%C4%B1NIT=b"

/--
A setting `LOCK_TIMEOUT` and the same one spelled with a Kelvin sign, which is not known.
-/
def kelvinDSN : GoString := ascii "h2://h:1/d?LOCK_TIMEOUT=5&LOC%E2%84%AA_TIMEOUT=5"

local instance : UnicodeTables := latinCases

def repeatedDSN : GoString := ascii "h2://h:1/d?MODE=a&MODE=b"

theorem order_shows
    : (∃ cfg, parseDSN .inserted dotlessDSN = .ok cfg ∧
        sessionPropertyMap .inserted cfg.params
          = [(ascii "INIT", ascii "a"), (ascii "INIT", ascii "b")] ∧
        sessionPropertyMap .reversed cfg.params
          = [(ascii "INIT", ascii "b"), (ascii "INIT", ascii "a")]) ∧
      (∃ cfg, parseDSN .inserted kelvinDSN = .ok cfg) ∧
      (∃ e, parseDSN .reversed kelvinDSN = .error e) ∧
      ∃ cfg, parseDSN .inserted repeatedDSN = .ok cfg ∧
        sessionPropertyMap .inserted cfg.params = [(ascii "MODE", ascii "a")] ∧
        carried repeatedDSN = [(ascii "MODE", ascii "a"), (ascii "MODE", ascii "b")] := by
  have hdotless := exists_of_accepts (show accepts (parseDSN .inserted dotlessDSN)
    (fun cfg => cfg.params = [(ascii "INIT", ascii "a"), ([196, 177, 78, 73, 84], ascii "b")])
      = true by decide +kernel)
  have hkelvin := exists_of_accepts (show accepts (parseDSN .inserted kelvinDSN)
    (fun _ => true) = true by decide +kernel)
  have hrefused := exists_of_not_accepts (show accepts (parseDSN .reversed kelvinDSN)
    (fun _ => true) = false by decide +kernel)
  have hrepeated := exists_of_accepts (show accepts (parseDSN .inserted repeatedDSN)
    (fun cfg => cfg.params = [(ascii "MODE", ascii "a")]) = true by decide +kernel)
  obtain ⟨cfg, hcfg, hparams⟩ := hdotless
  obtain ⟨cfg', hcfg', -⟩ := hkelvin
  obtain ⟨cfg'', hcfg'', hparams''⟩ := hrepeated
  refine ⟨⟨cfg, hcfg, ?_, ?_⟩, ⟨cfg', hcfg'⟩, hrefused, cfg'', hcfg'', ?_, by decide +kernel⟩
  . rw [of_decide_eq_true hparams, sessionPropertyMap_of_sorted _ _ (by decide +kernel)]
    decide +kernel
  . rw [of_decide_eq_true hparams, sessionPropertyMap_of_sorted _ _ (by decide +kernel)]
    decide +kernel
  . rw [of_decide_eq_true hparams'', sessionPropertyMap_of_sorted _ _ (by decide +kernel)]
    decide +kernel

end

end H2Go
