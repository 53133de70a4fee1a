import H2Go.DSN.Settings

/-!
This module contains the settings in the text of a DSN, and the maps of settings that the parser may
end up with. Which spelling of a key is kept depends on the order in which the settings are inserted,
and for a native DSN that is the order of a Go map.
-/

namespace H2Go

open Digits Strings Utf8 ExceptLemmas

section Fold

variable [UnicodeTables]

def foldKey (s : GoString) : List Nat := (runes s).map foldRune

theorem equalFold_iff {s t : GoString} : equalFold s t = true ↔ foldKey s = foldKey t := by
  rw [equalFold, decide_eq_true_iff]
  rfl

theorem equalFold_refl (s : GoString) : equalFold s s = true := equalFold_iff.mpr rfl

theorem equalFold_symm {s t : GoString} (h : equalFold s t = true) : equalFold t s = true :=
  equalFold_iff.mpr (equalFold_iff.mp h).symm

theorem equalFold_trans {s t u : GoString} (h : equalFold s t = true) (h' : equalFold t u = true)
    : equalFold s u = true :=
  equalFold_iff.mpr ((equalFold_iff.mp h).trans (equalFold_iff.mp h'))

def Unclashed (settings : Params) : Prop :=
  ∀ x ∈ settings, ∀ y ∈ settings, equalFold x.1 y.1 → x.2 = y.2

def Unlike (settings : Params) : Prop := (settings.map (fun kv => foldKey kv.1)).Nodup

def keepSpelling (kept : Params) (kv : GoString × GoString) : Params :=
  if kept.any (fun x => equalFold x.1 kv.1) then kept else kept ++ [kv]

def firstSpellings (settings : Params) : Params := settings.foldl keepSpelling []

theorem keepSpelling_of_like {kept : Params} {kv x : GoString × GoString} (hx : x ∈ kept)
    (h : equalFold x.1 kv.1 = true)
    : keepSpelling kept kv = kept :=
  if_pos (List.any_eq_true.mpr ⟨x, hx, h⟩)

theorem keepSpelling_of_unlike {kept : Params} {kv : GoString × GoString}
    (h : ∀ x ∈ kept, equalFold x.1 kv.1 = false)
    : keepSpelling kept kv = kept ++ [kv] := by
  refine if_neg (fun hany => ?_)
  obtain ⟨x, hx, hlike⟩ := List.any_eq_true.mp hany
  rw [h x hx] at hlike
  cases hlike

theorem Unlike.concat {kept : Params} {kv : GoString × GoString} (h : Unlike kept)
    (hkv : ∀ x ∈ kept, equalFold x.1 kv.1 = false)
    : Unlike (kept ++ [kv]) := by
  unfold Unlike at h ⊢
  rw [List.map_append, List.map_singleton, List.nodup_append]
  refine ⟨h, List.nodup_singleton _, ?_⟩
  intro a ha b hb hab
  obtain ⟨x, hx, rfl⟩ := List.mem_map.mp ha
  rw [List.mem_singleton.mp hb] at hab
  have hlike := equalFold_iff.mpr hab
  rw [hkv x hx] at hlike
  cases hlike

theorem Unlike.eq_of_like {kept : Params} (h : Unlike kept) {x y : GoString × GoString} (hx : x ∈ kept)
    (hy : y ∈ kept) (hlike : equalFold x.1 y.1 = true)
    : x = y :=
  List.inj_on_of_nodup_map h hx hy (equalFold_iff.mp hlike)

theorem Unlike.unclashed {kept : Params} (h : Unlike kept) : Unclashed kept :=
  fun _ hx _ hy hlike => congrArg Prod.snd (h.eq_of_like hx hy hlike)

theorem Unlike.nodup_keys {kept : Params} (h : Unlike kept) : (kept.map Prod.fst).Nodup := by
  have hmap : kept.map (fun kv => foldKey kv.1) = (kept.map Prod.fst).map foldKey := by
    rw [List.map_map]
    rfl
  unfold Unlike at h
  rw [hmap] at h
  exact h.of_map

theorem Unlike.perm {kept kept' : Params} (h : Unlike kept) (hperm : kept'.Perm kept) : Unlike kept' :=
  (hperm.map _).nodup_iff.mpr h

theorem unclashed_cons_of_like {kept settings : Params} {kv x : GoString × GoString} (hx : x ∈ kept)
    (hlike : equalFold x.1 kv.1 = true) (hval : x.2 = kv.2)
    : Unclashed (kept ++ kv :: settings) ↔ Unclashed (kept ++ settings) := by
  -- the setting may be replaced by the one it repeats
  have hreplace : ∀ y ∈ kept ++ kv :: settings, ∃ z ∈ kept ++ settings,
      equalFold z.1 y.1 = true ∧ z.2 = y.2 := by
    intro y hy
    rcases List.mem_append.mp hy with hy | hy
    . exact ⟨y, List.mem_append_left _ hy, equalFold_refl _, rfl⟩
    . rcases List.mem_cons.mp hy with rfl | hy
      . exact ⟨x, List.mem_append_left _ hx, hlike, hval⟩
      . exact ⟨y, List.mem_append_right _ hy, equalFold_refl _, rfl⟩
  constructor
  . intro h y hy z hz
    have hmem : ∀ y ∈ kept ++ settings, y ∈ kept ++ kv :: settings := by
      intro y hy
      rcases List.mem_append.mp hy with hy | hy <;> simp [hy]
    exact h y (hmem y hy) z (hmem z hz)
  . intro h y hy z hz hyz
    obtain ⟨y', hy', hlikey, hvaly⟩ := hreplace y hy
    obtain ⟨z', hz', hlikez, hvalz⟩ := hreplace z hz
    rw [← hvaly, ← hvalz]
    exact h y' hy' z' hz' (equalFold_trans hlikey (equalFold_trans hyz (equalFold_symm hlikez)))

/--
Inserting settings succeeds if none of them has two values, and the first spellings are kept.
-/
theorem setAll_eq_ok_iff {kept settings p : Params} (hkept : Unlike kept)
    : setAll kept settings = .ok p ↔
        Unclashed (kept ++ settings) ∧ p = settings.foldl keepSpelling kept := by
  induction settings generalizing kept with
  | nil =>
    rw [setAll, List.append_nil, List.foldl_nil]
    exact ⟨fun h => ⟨hkept.unclashed, by cases h; rfl⟩, fun h => by rw [h.2]⟩
  | cons kv settings ih =>
    rw [setAll, bind_eq_ok, List.foldl_cons]
    cases hfind : kept.find? (fun x => equalFold x.1 kv.1) with
    | some x =>
      have hx := List.mem_of_find?_eq_some hfind
      have hlike : equalFold x.1 kv.1 = true := by simpa using List.find?_some hfind
      rw [keepSpelling_of_like hx hlike]
      by_cases hval : x.2 = kv.2
      . have hset : setParam kept kv.1 kv.2 = .ok kept := by
          simp only [setParam, hfind, hval, ne_eq, not_true_eq_false, if_false]
        rw [unclashed_cons_of_like hx hlike hval, ← ih hkept, hset]
        exact exists_eq_ok_and_iff
      . constructor
        . rintro ⟨p', hp', -⟩
          simp only [setParam, hfind, ne_eq, hval, not_false_eq_true, if_true] at hp'
          cases hp'
        . rintro ⟨hclash, -⟩
          exact absurd (hclash x (by simp [hx]) kv (by simp) hlike) hval
    | none =>
      have hfresh : ∀ x ∈ kept, equalFold x.1 kv.1 = false := by
        intro x hx
        simpa using List.find?_eq_none.mp hfind x hx
      rw [keepSpelling_of_unlike hfresh, setParam_of_fresh kv.2 hfresh,
        show kept ++ kv :: settings = kept ++ [kv] ++ settings by simp, ← ih (hkept.concat hfresh)]
      exact exists_eq_ok_and_iff

theorem setAll_nil_eq_ok_iff {settings p : Params}
    : setAll [] settings = .ok p ↔ Unclashed settings ∧ p = firstSpellings settings :=
  setAll_eq_ok_iff List.nodup_nil

structure Spelling (settings kept : Params) : Prop where
  mem : ∀ x ∈ kept, x ∈ settings
  covers : ∀ x ∈ settings, ∃ y ∈ kept, equalFold y.1 x.1 = true
  unlike : Unlike kept

theorem Spelling.keep {settings kept : Params} (h : Spelling settings kept) (kv : GoString × GoString)
    : Spelling (settings ++ [kv]) (keepSpelling kept kv) := by
  by_cases hany : ∃ x ∈ kept, equalFold x.1 kv.1 = true
  . obtain ⟨x, hx, hlike⟩ := hany
    rw [keepSpelling_of_like hx hlike]
    refine ⟨fun y hy => List.mem_append_left _ (h.mem y hy), ?_, h.unlike⟩
    intro y hy
    rcases List.mem_append.mp hy with hy | hy
    . exact h.covers y hy
    . rw [List.mem_singleton.mp hy]
      exact ⟨x, hx, hlike⟩
  . have hfresh : ∀ x ∈ kept, equalFold x.1 kv.1 = false := by
      intro x hx
      by_contra hlike
      exact hany ⟨x, hx, Bool.not_eq_false _ ▸ hlike⟩
    rw [keepSpelling_of_unlike hfresh]
    refine ⟨?_, ?_, h.unlike.concat hfresh⟩
    . intro y hy
      rcases List.mem_append.mp hy with hy | hy
      . exact List.mem_append_left _ (h.mem y hy)
      . exact List.mem_append_right _ hy
    . intro y hy
      rcases List.mem_append.mp hy with hy | hy
      . obtain ⟨z, hz, hlike⟩ := h.covers y hy
        exact ⟨z, List.mem_append_left _ hz, hlike⟩
      . exact ⟨y, List.mem_append_right _ hy, equalFold_refl _⟩

theorem spelling_firstSpellings (settings : Params) : Spelling settings (firstSpellings settings) := by
  have hfold : ∀ settings before kept : Params, Spelling before kept →
      Spelling (before ++ settings) (settings.foldl keepSpelling kept) := by
    intro settings
    induction settings with
    | nil =>
      intro before kept h
      rw [List.append_nil]
      exact h
    | cons kv settings ih =>
      intro before kept h
      rw [show before ++ kv :: settings = before ++ [kv] ++ settings by simp]
      exact ih _ _ (h.keep kv)
  exact hfold settings [] [] ⟨by simp, by simp, List.nodup_nil⟩

theorem Spelling.perm {settings settings' kept kept' : Params} (h : Spelling settings kept)
    (hsettings : settings'.Perm settings) (hkept : kept'.Perm kept)
    : Spelling settings' kept' where
  mem x hx := hsettings.mem_iff.mpr (h.mem x (hkept.mem_iff.mp hx))
  covers x hx := by
    obtain ⟨y, hy, hlike⟩ := h.covers x (hsettings.mem_iff.mp hx)
    exact ⟨y, hkept.mem_iff.mpr hy, hlike⟩
  unlike := h.unlike.perm hkept

theorem Spelling.refl {kept : Params} (h : Unlike kept) : Spelling kept kept where
  mem _ hx := hx
  covers x hx := ⟨x, hx, equalFold_refl _⟩
  unlike := h

theorem Spelling.perm_of_unlike {settings kept : Params} (h : Spelling settings kept)
    (hunlike : Unlike settings)
    : kept.Perm settings := by
  refine (List.perm_ext_iff_of_nodup h.unlike.of_map hunlike.of_map).mpr
    (fun x => ⟨h.mem x, fun hx => ?_⟩)
  obtain ⟨y, hy, hlike⟩ := h.covers x hx
  rw [← hunlike.eq_of_like (h.mem y hy) hx hlike]
  exact hy

theorem firstSpellings_of_unlike {kept : Params} (h : Unlike kept) : firstSpellings kept = kept := by
  have hall : ∀ before : Params, ∀ kept : Params, Unlike (before ++ kept) →
      kept.foldl keepSpelling before = before ++ kept := by
    intro before kept
    induction kept generalizing before with
    | nil =>
      intro _
      rw [List.append_nil]
      rfl
    | cons kv kept ih =>
      intro h
      have hfresh : ∀ x ∈ before, equalFold x.1 kv.1 = false := by
        intro x hx
        unfold Unlike at h
        rw [List.map_append, List.nodup_append] at h
        by_contra hlike
        exact h.2.2 _ (List.mem_map_of_mem hx) _ (List.mem_map_of_mem List.mem_cons_self)
          (equalFold_iff.mp (Bool.not_eq_false _ ▸ hlike))
      rw [show before ++ kv :: kept = before ++ [kv] ++ kept by simp] at h ⊢
      rw [List.foldl_cons, keepSpelling_of_unlike hfresh, ih _ h]
  exact hall [] kept h

theorem firstSpellings_append {settings rest : Params}
    (hrest : ∀ x ∈ rest, ∃ y ∈ settings, equalFold y.1 x.1 = true)
    : firstSpellings (settings ++ rest) = firstSpellings settings := by
  have hskip : ∀ rest : Params, (∀ x ∈ rest, ∃ y ∈ firstSpellings settings, equalFold y.1 x.1 = true) →
      rest.foldl keepSpelling (firstSpellings settings) = firstSpellings settings := by
    intro rest
    induction rest with
    | nil =>
      intro _
      rfl
    | cons kv rest ih =>
      intro h
      obtain ⟨y, hy, hlike⟩ := h kv (by simp)
      rw [List.foldl_cons, keepSpelling_of_like hy hlike]
      exact ih (fun x hx => h x (by simp [hx]))
  rw [firstSpellings, List.foldl_append]
  refine hskip rest (fun x hx => ?_)
  obtain ⟨y, hy, hlike⟩ := hrest x hx
  obtain ⟨z, hz, hlike'⟩ := (spelling_firstSpellings settings).covers y hy
  exact ⟨z, hz, equalFold_trans hlike' hlike⟩

theorem subset_firstSpellings_append (settings rest : Params)
    : ∀ x ∈ firstSpellings settings, x ∈ firstSpellings (settings ++ rest) := by
  have hkeep : ∀ rest kept : Params, ∀ x ∈ kept, x ∈ rest.foldl keepSpelling kept := by
    intro rest
    induction rest with
    | nil => exact fun _ _ hx => hx
    | cons kv rest ih =>
      intro kept x hx
      refine ih _ x ?_
      unfold keepSpelling
      split
      . exact hx
      . exact List.mem_append_left _ hx
  rw [firstSpellings, firstSpellings, List.foldl_append]
  exact hkeep rest _

theorem spelling_of_chosen {settings chosen : Params} (hmem : ∀ x ∈ chosen, x ∈ settings)
    : Spelling settings (firstSpellings (chosen ++ settings)) := by
  have h := spelling_firstSpellings (chosen ++ settings)
  refine ⟨fun x hx => ?_, fun x hx => h.covers x (List.mem_append_right _ hx), h.unlike⟩
  exact (List.mem_append.mp (h.mem x hx)).elim (hmem x) id

theorem exists_spelling (settings chosen : Params) (hunlike : Unlike chosen)
    (hmem : ∀ x ∈ chosen, x ∈ settings)
    : ∃ kept, Spelling settings kept ∧ ∀ x ∈ chosen, x ∈ kept := by
  refine ⟨_, spelling_of_chosen hmem, fun x hx => subset_firstSpellings_append chosen settings x ?_⟩
  rw [firstSpellings_of_unlike hunlike]
  exact hx

end Fold

section Order

def pullKeys {β : Type} (keys : List GoString) (m : List (GoString × β)) : List (GoString × β) :=
  match keys with
  | [] => m
  | key :: keys => m.filter (fun kv => kv.1 = key) ++ pullKeys keys (m.filter (fun kv => !kv.1 = key))

theorem pullKeys_perm {β : Type} (keys : List GoString) (m : List (GoString × β))
    : (pullKeys keys m).Perm m := by
  induction keys generalizing m with
  | nil => exact List.Perm.refl m
  | cons key keys ih => exact ((ih _).append_left _).trans (List.filter_append_perm _ m)

def MapOrder.first (keys : List GoString) : MapOrder where
  range m := pullKeys keys m
  perm m := pullKeys_perm keys m

theorem heads_filter (p : GoString → Bool) (q : NetURL.Values)
    : heads (q.filter (fun kv => p kv.1)) = (heads q).filter (fun kv => p kv.1) := by
  induction q with
  | nil => rfl
  | cons kv q ih =>
    obtain ⟨k, vals⟩ := kv
    have hnil : ∀ q, heads ((k, []) :: q) = heads q := fun _ => rfl
    have hcons : ∀ v vals q, heads ((k, v :: vals) :: q) = (k, v) :: heads q := fun _ _ _ => rfl
    cases vals <;> cases hp : p k <;> simp [hp, hnil, hcons, ih]

theorem heads_pullKeys (keys : List GoString) (q : NetURL.Values)
    : heads (pullKeys keys q) = pullKeys keys (heads q) := by
  induction keys generalizing q with
  | nil => rfl
  | cons key keys ih =>
    rw [pullKeys, pullKeys, heads, List.filterMap_append]
    congr 1
    . exact heads_filter (fun k => k = key) q
    . rw [← heads_filter (fun k => !k = key) q]
      exact ih _

theorem filter_key_eq {m : Params} (hm : (m.map Prod.fst).Nodup) {x : GoString × GoString} (hx : x ∈ m)
    : m.filter (fun kv => kv.1 = x.1) = [x] := by
  induction m with
  | nil => simp at hx
  | cons kv m ih =>
    rw [List.map_cons, List.nodup_cons] at hm
    rcases List.mem_cons.mp hx with rfl | hx
    . rw [List.filter_cons_of_pos (by simp), List.filter_eq_nil_iff.mpr]
      intro y hy hkey
      exact hm.1 (List.mem_map.mpr ⟨y, hy, of_decide_eq_true hkey⟩)
    . rw [List.filter_cons_of_neg, ih hm.2 hx]
      intro hkey
      exact hm.1 (List.mem_map.mpr ⟨x, hx, (of_decide_eq_true hkey).symm⟩)

theorem pullKeys_eq_append {kept m : Params} (hm : (m.map Prod.fst).Nodup)
    (hkept : (kept.map Prod.fst).Nodup) (hsub : ∀ x ∈ kept, x ∈ m)
    : ∃ rest, pullKeys (kept.map Prod.fst) m = kept ++ rest := by
  induction kept generalizing m with
  | nil => exact ⟨m, rfl⟩
  | cons x kept ih =>
    rw [List.map_cons, List.nodup_cons] at hkept
    have hrest : ∀ y ∈ kept, y ∈ m.filter (fun kv => !kv.1 = x.1) := by
      intro y hy
      refine List.mem_filter.mpr ⟨hsub y (by simp [hy]), ?_⟩
      have hne : y.1 ≠ x.1 := fun h => hkept.1 (List.mem_map.mpr ⟨y, hy, h⟩)
      simpa using hne
    have hnodup : ((m.filter (fun kv => !kv.1 = x.1)).map Prod.fst).Nodup :=
      hm.sublist (List.filter_sublist.map _)
    obtain ⟨rest, hpull⟩ := ih hnodup hkept.2 hrest
    refine ⟨rest, ?_⟩
    rw [List.map_cons, pullKeys, filter_key_eq hm (hsub x (by simp)), hpull]
    rfl

theorem pullKeys_eq_of_perm {kept m : Params} (hm : (m.map Prod.fst).Nodup) (hperm : kept.Perm m)
    : pullKeys (kept.map Prod.fst) m = kept := by
  obtain ⟨rest, hpull⟩ := pullKeys_eq_append hm ((hperm.map _).nodup_iff.mpr hm)
    (fun x hx => hperm.mem_iff.mp hx)
  have hlen := (pullKeys_perm (kept.map Prod.fst) m).length_eq
  rw [hpull, List.length_append, hperm.length_eq] at hlen
  rw [hpull, List.length_eq_zero_iff.mp (show rest.length = 0 by omega), List.append_nil]

theorem nodup_keys_add {q : NetURL.Values} (h : (q.map Prod.fst).Nodup) (k v : GoString)
    : ((q.add k v).map Prod.fst).Nodup ∧ ∀ k' ∈ (q.add k v).map Prod.fst, k' = k ∨ k' ∈ q.map Prod.fst := by
  induction q with
  | nil => exact ⟨List.nodup_singleton _, by simp [NetURL.Values.add]⟩
  | cons kv q ih =>
    obtain ⟨k', vals⟩ := kv
    rw [List.map_cons, List.nodup_cons] at h
    unfold NetURL.Values.add
    by_cases hk : k' = k
    . rw [if_pos hk]
      exact ⟨List.nodup_cons.mpr h, fun k'' hk'' => .inr hk''⟩
    . rw [if_neg hk]
      obtain ⟨hnodup, hmem⟩ := ih h.2
      refine ⟨List.nodup_cons.mpr ⟨fun hin => ?_, hnodup⟩, fun k'' hk'' => ?_⟩
      . rcases hmem k' hin with heq | hin
        . exact hk heq
        . exact h.1 hin
      . rcases List.mem_cons.mp hk'' with rfl | hk''
        . exact .inr (by simp)
        . rcases hmem k'' hk'' with heq | hin
          . exact .inl heq
          . exact .inr (by simp [hin])

theorem nodup_keys_heads_query (u : NetURL.URL) : ((heads u.query).map Prod.fst).Nodup := by
  have hfold : ∀ (settings : List GoString) (q : NetURL.Values), (q.map Prod.fst).Nodup →
      ((settings.foldl NetURL.addSetting q).map Prod.fst).Nodup := by
    intro settings
    induction settings with
    | nil =>
      intro q h
      exact h
    | cons setting settings ih =>
      intro q h
      refine ih _ ?_
      unfold NetURL.addSetting
      split
      . exact h
      . dsimp only
        split
        . exact (nodup_keys_add h _ _).1
        . exact h
  have hsub : ∀ q : NetURL.Values, ((heads q).map Prod.fst).Sublist (q.map Prod.fst) := by
    intro q
    induction q with
    | nil => exact List.Sublist.refl _
    | cons kv q ih =>
      obtain ⟨k, vals⟩ := kv
      cases vals with
      | nil => exact ih.cons k
      | cons v vals => exact ih.cons_cons k
  exact (hfold _ [] List.nodup_nil).sublist (hsub _)

end Order

section Checks

variable [UnicodeTables]

/--
The flag at the end of the loop of `validateParams`, the last setting of its kind counts.
-/
def lastIgnore (flag : Bool) (params : Params) : Bool :=
  params.foldl
    (fun flag kv => if toUpper kv.1 = ascii "IGNORE_UNKNOWN_SETTINGS" then isTruthy kv.2 else flag) flag

def TimeoutsOK (params : Params) : Prop :=
  ∀ kv ∈ params, toUpper kv.1 = ascii "QUERY_TIMEOUT" → ∃ n, atoi (trimSpace kv.2) = .ok n

def Passes (params : Params) : Prop :=
  TimeoutsOK params ∧
    ((∀ kv ∈ params, recognized (toUpper kv.1)) ∨ lastIgnore false params = true)

theorem validateParams_go_run {params : Params} (h : TimeoutsOK params) (flag : Bool)
    (unknown : List GoString)
    : validateParams.go flag unknown params = .ok (lastIgnore flag params,
        unknown ++ (params.filter (fun kv => !recognized (toUpper kv.1))).map Prod.fst) := by
  induction params generalizing flag unknown with
  | nil => simp [validateParams.go, lastIgnore]
  | cons kv params ih =>
    rw [validateParams_go_cons (h kv (by simp)), ih (fun kv hkv => h kv (by simp [hkv]))]
    cases hrec : recognized (toUpper kv.1) <;> simp [lastIgnore, hrec]

theorem validateParams_eq_ok_iff (o : MapOrder) (params : Params)
    : validateParams o params = .ok () ↔ Passes (o.range params) := by
  unfold validateParams Passes
  by_cases htimeouts : TimeoutsOK (o.range params)
  . rw [validateParams_go_run htimeouts]
    simp only [bind, Except.bind, List.nil_append]
    have hunknown : ((o.range params).filter (fun kv => !recognized (toUpper kv.1))).map Prod.fst = []
        ↔ ∀ kv ∈ o.range params, recognized (toUpper kv.1) = true := by
      rw [List.map_eq_nil_iff, List.filter_eq_nil_iff]
      simp
    rw [← hunknown]
    split
    . next h => exact ⟨fun _ => ⟨htimeouts, h⟩, fun _ => rfl⟩
    . next h => exact ⟨fun h' => (by cases h'), fun h' => absurd h'.2 h⟩
  . refine ⟨fun h => ?_, fun h => absurd h.1 htimeouts⟩
    rcases validateParams_go_cases (o.range params) false [] with ⟨hall, -⟩ | ⟨-, e, he⟩
    . exact absurd (fun kv hkv hkey => hall _ (mem_upperKeys_of_mem hkv) hkey) htimeouts
    . rw [he] at h
      cases h

theorem lastIgnore_concat (flag : Bool) (params : Params) {kv : GoString × GoString}
    (h : toUpper kv.1 = ascii "IGNORE_UNKNOWN_SETTINGS")
    : lastIgnore flag (params ++ [kv]) = isTruthy kv.2 := by
  rw [lastIgnore, List.foldl_append, List.foldl_cons, List.foldl_nil, if_pos h]

theorem lastIgnore_cases (flag : Bool) (params : Params)
    : (lastIgnore flag params = flag ∧
          ∀ kv ∈ params, toUpper kv.1 ≠ ascii "IGNORE_UNKNOWN_SETTINGS") ∨
        ∃ kv ∈ params, toUpper kv.1 = ascii "IGNORE_UNKNOWN_SETTINGS" ∧
          lastIgnore flag params = isTruthy kv.2 := by
  induction params generalizing flag with
  | nil => exact .inl ⟨rfl, by simp⟩
  | cons kv params ih =>
    have hstep : lastIgnore flag (kv :: params) = lastIgnore
        (if toUpper kv.1 = ascii "IGNORE_UNKNOWN_SETTINGS" then isTruthy kv.2 else flag) params := rfl
    rw [hstep]
    rcases ih (if toUpper kv.1 = ascii "IGNORE_UNKNOWN_SETTINGS" then isTruthy kv.2 else flag) with
      ⟨hflag, hnone⟩ | ⟨x, hx, hkey, hflag⟩
    . by_cases hkv : toUpper kv.1 = ascii "IGNORE_UNKNOWN_SETTINGS"
      . rw [if_pos hkv] at hflag ⊢
        exact .inr ⟨kv, by simp, hkv, hflag⟩
      . rw [if_neg hkv] at hflag ⊢
        exact .inl ⟨hflag, List.forall_mem_cons.mpr ⟨hkv, hnone⟩⟩
    . exact .inr ⟨x, by simp [hx], hkey, hflag⟩

def AlwaysPasses (params : Params) : Prop :=
  TimeoutsOK params ∧
    ((∀ kv ∈ params, recognized (toUpper kv.1)) ∨
      (∃ kv ∈ params, toUpper kv.1 = ascii "IGNORE_UNKNOWN_SETTINGS") ∧
        ∀ kv ∈ params, toUpper kv.1 = ascii "IGNORE_UNKNOWN_SETTINGS" → isTruthy kv.2)

omit [UnicodeTables] in
theorem exists_perm_concat {params : Params} {kv : GoString × GoString} (h : kv ∈ params)
    : ∃ before, (before ++ [kv]).Perm params := by
  obtain ⟨a, b, rfl⟩ := List.append_of_mem h
  exact ⟨a ++ b, by
    rw [List.append_assoc]
    exact (List.perm_append_comm).append_left a⟩

theorem timeoutsOK_perm {params params' : Params} (hperm : params'.Perm params)
    : TimeoutsOK params' ↔ TimeoutsOK params := by
  simp only [TimeoutsOK, hperm.mem_iff]

theorem alwaysPasses_iff (params : Params)
    : AlwaysPasses params ↔ ∀ params', params'.Perm params → Passes params' := by
  constructor
  . rintro ⟨htimeouts, hall⟩ params' hperm
    refine ⟨(timeoutsOK_perm hperm).mpr htimeouts, ?_⟩
    rcases hall with hall | ⟨⟨x, hx, hkey⟩, htrue⟩
    . exact .inl (fun kv hkv => hall kv (hperm.mem_iff.mp hkv))
    . rcases lastIgnore_cases false params' with ⟨-, hnone⟩ | ⟨y, hy, hkey', hflag⟩
      . exact absurd hkey (hnone x (hperm.mem_iff.mpr hx))
      . rw [hflag]
        exact .inr (htrue y (hperm.mem_iff.mp hy) hkey')
  . intro h
    obtain ⟨htimeouts, hpass⟩ := h params (List.Perm.refl _)
    refine ⟨htimeouts, ?_⟩
    by_cases hall : ∀ kv ∈ params, recognized (toUpper kv.1)
    . exact .inl hall
    . refine .inr ⟨?_, fun kv hkv hkey => ?_⟩
      . rcases lastIgnore_cases false params with ⟨hflag, -⟩ | ⟨y, hy, hkey, -⟩
        . rw [hflag] at hpass
          exact absurd hpass (by simpa using hall)
        . exact ⟨y, hy, hkey⟩
      . -- the last setting decides, and each of them may be the last
        obtain ⟨before, hperm⟩ := exists_perm_concat hkv
        rcases (h _ hperm).2 with hall' | hflag
        . exact absurd (fun x hx => hall' x (hperm.mem_iff.mpr hx)) hall
        . rwa [lastIgnore_concat _ _ hkey] at hflag

theorem validSettings_iff_exists_perm (params : Params)
    : ValidSettings (upperKeys params) ↔ ∃ params', params'.Perm params ∧ Passes params' := by
  have htimeouts : (∀ x ∈ upperKeys params, x.1 = ascii "QUERY_TIMEOUT" →
      ∃ n, atoi (trimSpace x.2) = .ok n) ↔ TimeoutsOK params := by
    simp only [upperKeys, List.forall_mem_map, TimeoutsOK]
  have hrecognized : (∀ x ∈ upperKeys params, recognized x.1 = true) ↔
      ∀ kv ∈ params, recognized (toUpper kv.1) = true := by
    simp only [upperKeys, List.forall_mem_map]
  unfold ValidSettings
  rw [htimeouts, hrecognized]
  constructor
  . rintro ⟨htimeouts, hall | ⟨x, hx, hkey, htrue⟩⟩
    . exact ⟨params, List.Perm.refl _, htimeouts, .inl hall⟩
    . obtain ⟨kv, hkv, rfl⟩ := mem_upperKeys.mp hx
      obtain ⟨before, hperm⟩ := exists_perm_concat hkv
      refine ⟨_, hperm, (timeoutsOK_perm hperm).mpr htimeouts, .inr ?_⟩
      rw [lastIgnore_concat _ _ hkey]
      exact htrue
  . rintro ⟨params', hperm, htimeouts, hpass⟩
    refine ⟨(timeoutsOK_perm hperm).mp htimeouts, ?_⟩
    rcases hpass with hall | hflag
    . exact .inl (fun kv hkv => hall kv (hperm.mem_iff.mpr hkv))
    . rcases lastIgnore_cases false params' with ⟨hnone, -⟩ | ⟨kv, hkv, hkey, htrue⟩
      . rw [hnone] at hflag
        cases hflag
      . exact .inr ⟨_, mem_upperKeys_of_mem (hperm.mem_iff.mp hkv), hkey, htrue ▸ hflag⟩

end Checks

section Parse

def settingOf (text : GoString) : GoString × GoString :=
  ((cut equalsByte text).1, (cut equalsByte text).2.getD [])

def jdbcScheme (input : GoString) : Bool := (ascii "jdbc:h2:").isPrefixOf input

def nativeScheme (input : GoString) : Bool :=
  (ascii "h2://").isPrefixOf input || (ascii "h2+tcp://").isPrefixOf input
    || (ascii "h2+ssl://").isPrefixOf input

/--
The settings in the text of a JDBC DSN. As in H2 itself they stand behind the unescaped semicolons,
and are taken as they are written.
-/
def jdbcCarried (input : GoString) : Params :=
  ((splitSettingSegments (trimPrefix (ascii "jdbc:h2:") input)).tail.filter (· ≠ [])).map settingOf

/--
A text of a query, its escapes are decoded if they are well formed.
-/
def decoded (text : GoString) : GoString :=
  match NetURL.unescape .queryComponent text with
  | .ok text => text
  | .error _ => text

/--
The settings in the text of a native DSN. They stand between the ampersands of the query.
-/
def nativeCarried (input : GoString) : Params :=
  let query := (cut questionByte (cut hashByte input).1).2.getD []
  ((NetURL.querySettings query).filter (· ≠ [])).map (fun text =>
    (decoded (settingOf text).1, decoded (settingOf text).2))

/--
The settings that a DSN carries, whatever the parser makes of them.
-/
def carried (input : GoString) : Params :=
  if jdbcScheme input then
    jdbcCarried input
  else if nativeScheme input then
    nativeCarried input
  else
    []

variable [UnicodeTables]

def readSettings (parts : List GoString) : Option Params :=
  match parts with
  | [] => some []
  | p :: parts =>
    if p = [] then
      readSettings parts
    else
      match cut equalsByte p with
      | (_, none) => none
      | (key, some val) => (readSettings parts).map ((key, val) :: ·)

theorem parseJDBC_go_eq_ok_iff (cfg cfg' : ParsedDSN) (parts : List GoString)
    : parseJDBC.go cfg parts = .ok cfg' ↔
      ∃ settings p, readSettings parts = some settings ∧ setAll cfg.params settings = .ok p ∧
        cfg' = setCredentials { cfg with params := p } settings := by
  induction parts generalizing cfg with
  | nil =>
    constructor
    . intro h
      cases h
      exact ⟨[], _, rfl, rfl, rfl⟩
    . rintro ⟨settings, p, hread, hset, rfl⟩
      cases hread
      cases hset
      rfl
  | cons part parts ih =>
    rw [parseJDBC.go, readSettings]
    by_cases hempty : part = []
    . rw [if_pos hempty, if_pos hempty]
      exact ih cfg
    . rw [if_neg hempty, if_neg hempty]
      rcases hcut : cut equalsByte part with ⟨key, _ | val⟩
      . constructor
        . intro h
          cases h
        . rintro ⟨_, _, h, -⟩
          cases h
      . dsimp only
        rw [bind_eq_ok]
        simp only [ih, ParsedDSN.params_setCredential, Option.map_eq_some_iff]
        constructor
        . rintro ⟨params, hset, settings, p, hread, hall, rfl⟩
          refine ⟨_, p, ⟨settings, hread, rfl⟩, ?_, ?_⟩
          . rw [setAll, bind_eq_ok]
            exact ⟨params, hset, hall⟩
          . rw [setCredential_with_params]
            rfl
        . rintro ⟨_, p, ⟨settings, hread, rfl⟩, hall, rfl⟩
          rw [setAll, bind_eq_ok] at hall
          obtain ⟨params, hset, hall⟩ := hall
          refine ⟨params, hset, settings, p, hread, hall, ?_⟩
          rw [setCredential_with_params]
          rfl

def ValidURL (u : NetURL.URL) : Prop :=
  ValidAddress u.hostname (if u.port ≠ [] then u.port else defaultTCPPortStr)

/--
A JDBC DSN whose only flaws may be those of its settings.
-/
def JDBCSettings (input : GoString) (settings : Params) : Prop :=
  jdbcScheme input ∧
    ((ascii "tcp:").isPrefixOf (trimPrefix (ascii "jdbc:h2:") input) ∨
      (ascii "ssl:").isPrefixOf (trimPrefix (ascii "jdbc:h2:") input)) ∧
    ∃ u, NetURL.parse (trimPrefix (ascii "jdbc:h2:") input) = .ok u ∧ ValidURL u ∧
      readSettings (splitSettingSegments u.path).tail = some settings

/--
A native DSN whose only flaws may be those of its settings.
-/
def NativeQuery (input : GoString) (q : NetURL.Values) : Prop :=
  nativeScheme input ∧ ∃ u, NetURL.parse input = .ok u ∧ ValidURL u ∧ q = u.query

omit [UnicodeTables] in
theorem head_of_isPrefixOf {a : UInt8} {pre s : GoString} (h : (a :: pre).isPrefixOf s = true)
    : s.head? = some a := by
  cases s with
  | nil => cases h
  | cons b s =>
    rw [List.isPrefixOf_cons_cons, Bool.and_eq_true, beq_iff_eq] at h
    rw [List.head?_cons, h.1]

omit [UnicodeTables] in
theorem not_isPrefixOf_of_head {a b : UInt8} {pre s : GoString} (h : s.head? = some a) (hne : b ≠ a)
    : (b :: pre).isPrefixOf s = false := by
  by_contra hpre
  rw [head_of_isPrefixOf (Bool.not_eq_false _ ▸ hpre)] at h
  exact hne (Option.some.inj h)

omit [UnicodeTables] in
theorem head_of_nativeScheme {input : GoString} (h : nativeScheme input = true)
    : input.head? = some 104 := by
  simp only [nativeScheme, Bool.or_eq_true] at h
  rcases h with (h | h) | h
  all_goals exact head_of_isPrefixOf h

omit [UnicodeTables] in
theorem jdbcScheme_of_native {input : GoString} (h : nativeScheme input = true)
    : jdbcScheme input = false :=
  not_isPrefixOf_of_head (head_of_nativeScheme h) (by decide)

theorem parseJDBC_eq_ok_iff {o : MapOrder} {input : GoString} {cfg : ParsedDSN}
    : parseJDBC o input = .ok cfg ↔
      ((ascii "tcp:").isPrefixOf (trimPrefix (ascii "jdbc:h2:") input) ∨
        (ascii "ssl:").isPrefixOf (trimPrefix (ascii "jdbc:h2:") input)) ∧
      ∃ u cfg' base, NetURL.parse (trimPrefix (ascii "jdbc:h2:") input) = .ok u ∧
        base = { ({ ParsedDSN.empty input with
            tls := (ascii "ssl:").isPrefixOf (trimPrefix (ascii "jdbc:h2:") input) } : ParsedDSN).setAddress u
          with database := trimPrefix (ascii "/") ((splitSettingSegments u.path).headD []) } ∧
        parseJDBC.go base (splitSettingSegments u.path).tail = .ok cfg' ∧ validate o cfg' = .ok cfg := by
  unfold parseJDBC
  generalize trimPrefix (ascii "jdbc:h2:") input = inner
  dsimp only
  constructor
  . intro h
    split at h
    . cases h
    . split at h
      . cases h
      . next hproto =>
        rw [bind_eq_ok] at h
        obtain ⟨u, hu, h⟩ := h
        rw [bind_eq_ok] at h
        obtain ⟨cfg', hgo, hvalid⟩ := h
        rw [not_and_or, not_not, not_not] at hproto
        exact ⟨hproto.symm, u, cfg', _, mapError_eq_ok.mp hu, rfl, hgo, hvalid⟩
  . rintro ⟨hproto, u, cfg', base, hu, rfl, hgo, hvalid⟩
    have hhead : inner.head? = some 116 ∨ inner.head? = some 115 :=
      hproto.imp head_of_isPrefixOf head_of_isPrefixOf
    have hmem : (ascii "mem:").isPrefixOf inner = false := by
      rcases hhead with h | h <;> exact not_isPrefixOf_of_head h (by decide)
    have hfile : (ascii "file:").isPrefixOf inner = false := by
      rcases hhead with h | h <;> exact not_isPrefixOf_of_head h (by decide)
    rw [if_neg (by simp [hmem, hfile]), if_neg (by tauto), hu]
    simp only [Except.mapError, bind, Except.bind, hgo]
    exact hvalid

theorem parseDSN_eq_parseJDBC {o : MapOrder} {input : GoString} (hscheme : jdbcScheme input)
    : parseDSN o input = parseJDBC o input := by
  have hne : input ≠ [] := by
    rintro rfl
    cases hscheme
  unfold parseDSN
  rw [if_neg hne]
  exact if_pos hscheme

theorem parseDSN_eq_parseNative {o : MapOrder} {input : GoString} (hscheme : nativeScheme input)
    : parseDSN o input = parseNative o input := by
  have hne : input ≠ [] := by
    rintro rfl
    cases hscheme
  have hjdbc : ¬ (ascii "jdbc:h2:").isPrefixOf input = true := by
    rw [show (ascii "jdbc:h2:").isPrefixOf input = false from jdbcScheme_of_native hscheme]
    simp
  unfold parseDSN
  rw [if_neg hne, if_neg hjdbc, if_pos]
  simpa only [nativeScheme, Bool.or_eq_true, or_assoc] using hscheme

theorem parseDSN_of_jdbc {o : MapOrder} {input : GoString} {p : Params}
    : (jdbcScheme input ∧ ∃ cfg, parseDSN o input = .ok cfg ∧ cfg.params = p) ↔
      ∃ settings, JDBCSettings input settings ∧ Unclashed settings ∧ p = firstSpellings settings ∧
        Passes (o.range p) := by
  have hfields : ∀ (cfg : ParsedDSN) (settings : Params) (p' : Params),
      (setCredentials { cfg with params := p' } settings).params = p' ∧
      (setCredentials { cfg with params := p' } settings).host = cfg.host ∧
      (setCredentials { cfg with params := p' } settings).port = cfg.port :=
    fun cfg settings p' => setCredentials_fields { cfg with params := p' } settings
  constructor
  . rintro ⟨hscheme, cfg, hparse, rfl⟩
    rw [parseDSN_eq_parseJDBC hscheme] at hparse
    obtain ⟨hproto, u, cfg', base, hu, hbase, hgo, hvalid⟩ := parseJDBC_eq_ok_iff.mp hparse
    obtain ⟨settings, p, hread, hset, rfl⟩ := (parseJDBC_go_eq_ok_iff _ _ _).mp hgo
    obtain ⟨haddress, hparams, rfl⟩ := validate_eq_ok_iff.mp hvalid
    rw [show base.params = [] by rw [hbase]; rfl] at hset
    obtain ⟨hunclashed, hp⟩ := setAll_nil_eq_ok_iff.mp hset
    rw [(hfields _ _ _).2.1, (hfields _ _ _).2.2, hbase] at haddress
    rw [(hfields _ _ _).1] at hparams ⊢
    exact ⟨settings, ⟨hscheme, hproto, u, hu, haddress, hread⟩, hunclashed, hp,
      (validateParams_eq_ok_iff o p).mp hparams⟩
  . rintro ⟨settings, ⟨hscheme, hproto, u, hu, haddress, hread⟩, hunclashed, rfl, hpasses⟩
    refine ⟨hscheme, _, (parseDSN_eq_parseJDBC hscheme).trans (parseJDBC_eq_ok_iff.mpr ⟨hproto, u, _, _, hu, rfl,
      (parseJDBC_go_eq_ok_iff _ _ _).mpr ⟨settings, firstSpellings settings, hread,
        setAll_nil_eq_ok_iff.mpr ⟨hunclashed, rfl⟩, rfl⟩,
      validate_eq_ok_iff.mpr ⟨?_, ?_, rfl⟩⟩), (hfields _ _ _).1⟩
    . rw [(hfields _ _ _).2.1, (hfields _ _ _).2.2]
      exact haddress
    . rw [(hfields _ _ _).1]
      exact (validateParams_eq_ok_iff o _).mpr hpasses

theorem parseDSN_of_native {o : MapOrder} {input : GoString} {p : Params}
    : (nativeScheme input ∧ ∃ cfg, parseDSN o input = .ok cfg ∧ cfg.params = p) ↔
      ∃ q, NativeQuery input q ∧ Unclashed (heads q) ∧ p = firstSpellings (heads (o.range q)) ∧
        Passes (o.range p) := by
  have hunclashed : ∀ q : NetURL.Values, Unclashed (heads (o.range q)) ↔ Unclashed (heads q) := by
    intro q
    have hperm : (heads (o.range q)).Perm (heads q) := (o.perm q).filterMap _
    simp only [Unclashed, hperm.mem_iff]
  have hbase : ∀ (u : NetURL.URL) (p : Params), (nativeBase input u p).params = p ∧
      (nativeBase input u p).host = u.hostname ∧
      (nativeBase input u p).port = if u.port ≠ [] then u.port else defaultTCPPortStr := by
    intro u p
    unfold nativeBase ParsedDSN.setUserinfo
    cases u.user <;> exact ⟨rfl, rfl, rfl⟩
  constructor
  . rintro ⟨hscheme, cfg, hcfg, rfl⟩
    rw [parseDSN_eq_parseNative hscheme, parseNative_eq_ok_iff] at hcfg
    obtain ⟨u, p, hu, hset, hvalid⟩ := hcfg
    obtain ⟨haddress, hparams, rfl⟩ := validate_eq_ok_iff.mp hvalid
    obtain ⟨hclash, hp⟩ := setAll_nil_eq_ok_iff.mp hset
    rw [(hbase u p).2.1, (hbase u p).2.2] at haddress
    rw [(hbase u p).1] at hparams ⊢
    exact ⟨u.query, ⟨hscheme, u, hu, haddress, rfl⟩, (hunclashed _).mp hclash, hp,
      (validateParams_eq_ok_iff o p).mp hparams⟩
  . rintro ⟨_, ⟨hscheme, u, hu, haddress, rfl⟩, hclash, rfl, hpasses⟩
    refine ⟨hscheme, _, (parseDSN_eq_parseNative hscheme).trans (parseNative_eq_ok_iff.mpr ⟨u, _, hu,
      setAll_nil_eq_ok_iff.mpr ⟨(hunclashed _).mpr hclash, rfl⟩,
      validate_eq_ok_iff.mpr ⟨?_, ?_, rfl⟩⟩), (hbase _ _).1⟩
    . rw [(hbase u _).2.1, (hbase u _).2.2]
      exact haddress
    . rw [(hbase u _).1]
      exact (validateParams_eq_ok_iff o _).mpr hpasses

/--
The settings that the parser reads, and those of their spellings that it may keep: the first ones in a
JDBC DSN, all of them in a native one.
-/
inductive Reads (input : GoString) : Params → Params → Prop where
  | jdbc {settings : Params} (h : JDBCSettings input settings)
      : Reads input settings (firstSpellings settings)
  | native {q : NetURL.Values} (h : NativeQuery input q) : Reads input (heads q) (heads q)

omit [UnicodeTables] in
theorem NativeQuery.eq {input : GoString} {q q' : NetURL.Values} (h : NativeQuery input q)
    (h' : NativeQuery input q')
    : q' = q := by
  obtain ⟨-, u, hu, -, rfl⟩ := h
  obtain ⟨-, u', hu', -, rfl⟩ := h'
  rw [hu] at hu'
  cases hu'
  rfl

/--
In an order that visits the spellings `visited` first these are the ones that are kept.
-/
theorem NativeQuery.firstSpellings_first {input : GoString} {q : NetURL.Values} (h : NativeQuery input q)
    {visited : Params} (hvisited : Spelling (heads q) visited)
    : firstSpellings (heads ((MapOrder.first (visited.map Prod.fst)).range q)) = visited := by
  have hnodup : ((heads q).map Prod.fst).Nodup := by
    obtain ⟨-, u, -, -, rfl⟩ := h
    exact nodup_keys_heads_query u
  obtain ⟨rest, hpull⟩ := pullKeys_eq_append hnodup hvisited.unlike.nodup_keys hvisited.mem
  have hrest : ∀ x ∈ rest, ∃ y ∈ visited, equalFold y.1 x.1 = true := by
    intro x hx
    refine hvisited.covers x ((pullKeys_perm (visited.map Prod.fst) _).mem_iff.mp ?_)
    rw [hpull]
    exact List.mem_append_right _ hx
  rw [show heads ((MapOrder.first (visited.map Prod.fst)).range q) = visited ++ rest from
    (heads_pullKeys _ _).trans hpull]
  rw [firstSpellings_append hrest, firstSpellings_of_unlike hvisited.unlike]

namespace Reads

variable {o : MapOrder} {input : GoString} {settings spellings kept : Params}

theorem mem (h : Reads input settings spellings) : ∀ x ∈ spellings, x ∈ settings := by
  cases h with
  | jdbc h => exact (spelling_firstSpellings settings).mem
  | native h => exact fun _ hx => hx

theorem eq (h : Reads input settings spellings) {settings' spellings' : Params}
    (h' : Reads input settings' spellings')
    : settings' = settings ∧ spellings' = spellings := by
  cases h with
  | jdbc h =>
    obtain ⟨hscheme, -, u, hu, -, hread⟩ := h
    cases h' with
    | jdbc h' =>
      obtain ⟨-, -, u', hu', -, hread'⟩ := h'
      rw [hu] at hu'
      cases hu'
      rw [hread] at hread'
      cases hread'
      exact ⟨rfl, rfl⟩
    | native h' =>
      rw [jdbcScheme_of_native h'.1] at hscheme
      cases hscheme
  | native h =>
    cases h' with
    | jdbc h' =>
      have hjdbc := h'.1
      rw [jdbcScheme_of_native h.1] at hjdbc
      cases hjdbc
    | native h' =>
      rw [h.eq h']
      exact ⟨rfl, rfl⟩

theorem spelling_range {q : NetURL.Values} (o : MapOrder)
    : Spelling (heads q) (firstSpellings (heads (o.range q))) :=
  (spelling_firstSpellings _).perm ((o.perm q).filterMap _).symm (List.Perm.refl _)

theorem of_parseDSN {cfg : ParsedDSN} (h : parseDSN o input = .ok cfg)
    : ∃ settings spellings, Reads input settings spellings ∧ Spelling spellings cfg.params ∧
        Unclashed settings ∧ Passes (o.range cfg.params) := by
  have hscheme : jdbcScheme input = true ∨ nativeScheme input = true := by
    unfold parseDSN at h
    split at h
    . cases h
    . split at h
      . next hjdbc => exact .inl hjdbc
      . split at h
        . next hnative => exact .inr (by simpa only [nativeScheme, Bool.or_eq_true, or_assoc] using hnative)
        . cases h
  rcases hscheme with hscheme | hscheme
  . obtain ⟨settings, hsettings, hclash, hp, hpasses⟩ :=
      parseDSN_of_jdbc.mp ⟨hscheme, cfg, h, rfl⟩
    rw [hp] at hpasses ⊢
    exact ⟨settings, _, .jdbc hsettings, .refl (spelling_firstSpellings settings).unlike, hclash,
      hpasses⟩
  . obtain ⟨q, hq, hclash, hp, hpasses⟩ := parseDSN_of_native.mp ⟨hscheme, cfg, h, rfl⟩
    rw [hp] at hpasses ⊢
    exact ⟨heads q, _, .native hq, spelling_range o, hclash, hpasses⟩

/--
Each choice of spellings is the outcome for some order, and may be visited in any order then.
-/
theorem exists_order (h : Reads input settings spellings) (hclash : Unclashed settings)
    (hkept : Spelling spellings kept) {visited : Params} (hperm : visited.Perm kept)
    : ∃ o, (∀ cfg, parseDSN o input = .ok cfg → Passes visited) ∧
        (Passes visited → ∃ cfg, parseDSN o input = .ok cfg ∧ cfg.params.Perm kept) := by
  have hvisited := hkept.perm (List.Perm.refl _) hperm
  refine ⟨.first (visited.map Prod.fst), ?_⟩
  cases h with
  | jdbc h =>
    have hunlike := (spelling_firstSpellings settings).unlike
    have hspellings : visited.Perm (firstSpellings settings) := hvisited.perm_of_unlike hunlike
    have hrange : (MapOrder.first (visited.map Prod.fst)).range (firstSpellings settings) = visited :=
      pullKeys_eq_of_perm hunlike.nodup_keys hspellings
    constructor
    . intro cfg hcfg
      obtain ⟨settings', hsettings', -, hp, hpasses⟩ := parseDSN_of_jdbc.mp ⟨h.1, cfg, hcfg, rfl⟩
      rw [(eq (.jdbc h) (.jdbc hsettings')).1] at hp
      rwa [hp, hrange] at hpasses
    . intro hpasses
      rw [← hrange] at hpasses
      obtain ⟨-, cfg, hcfg, hp⟩ := parseDSN_of_jdbc.mpr ⟨settings, h, hclash, rfl, hpasses⟩
      exact ⟨cfg, hcfg, hp ▸ hspellings.symm.trans hperm⟩
  | @native q h =>
    have hfirst := h.firstSpellings_first hvisited
    have hrange : (MapOrder.first (visited.map Prod.fst)).range visited = visited :=
      pullKeys_eq_of_perm hvisited.unlike.nodup_keys (List.Perm.refl _)
    constructor
    . intro cfg hcfg
      obtain ⟨q', hq', -, hp, hpasses⟩ := parseDSN_of_native.mp ⟨h.1, cfg, hcfg, rfl⟩
      rwa [hp, h.eq hq', hfirst, hrange] at hpasses
    . intro hpasses
      rw [← hrange] at hpasses
      obtain ⟨-, cfg, hcfg, hp⟩ := parseDSN_of_native.mpr
        ⟨q, h, hclash, rfl, by rw [hfirst]; exact hpasses⟩
      exact ⟨cfg, hcfg, by rw [hp, hfirst]; exact hperm⟩

/--
A DSN is accepted in some order exactly when some choice of spellings passes the checks.
-/
theorem accepted_iff (h : Reads input settings spellings) (hclash : Unclashed settings)
    : (∃ o cfg, parseDSN o input = .ok cfg) ↔
        ∃ kept, Spelling spellings kept ∧ ValidSettings (upperKeys kept) := by
  constructor
  . rintro ⟨o, cfg, hcfg⟩
    obtain ⟨settings', spellings', h', hkept, -, hpasses⟩ := of_parseDSN hcfg
    obtain ⟨rfl, rfl⟩ := h.eq h'
    exact ⟨cfg.params, hkept, (validSettings_iff_exists_perm _).mpr ⟨_, o.perm _, hpasses⟩⟩
  . rintro ⟨kept, hkept, hvalid⟩
    obtain ⟨visited, hperm, hpasses⟩ := (validSettings_iff_exists_perm kept).mp hvalid
    obtain ⟨o, -, haccept⟩ := h.exists_order hclash hkept hperm
    obtain ⟨cfg, hcfg, -⟩ := haccept hpasses
    exact ⟨o, cfg, hcfg⟩

/--
The DSN is accepted in every order if every choice of spellings passes the checks in every order.
-/
theorem accepted (h : Reads input settings spellings) (hclash : Unclashed settings)
    (hall : ∀ kept, Spelling spellings kept → AlwaysPasses kept) (o : MapOrder)
    : ∃ cfg, parseDSN o input = .ok cfg := by
  have hpasses : ∀ kept, Spelling spellings kept → Passes (o.range kept) :=
    fun kept hkept => (alwaysPasses_iff kept).mp (hall kept hkept) _ (o.perm kept)
  cases h with
  | jdbc h =>
    obtain ⟨-, cfg, hcfg, -⟩ := parseDSN_of_jdbc.mpr ⟨settings, h, hclash, rfl,
      hpasses _ (.refl (spelling_firstSpellings settings).unlike)⟩
    exact ⟨cfg, hcfg⟩
  | @native q h =>
    obtain ⟨-, cfg, hcfg, -⟩ := parseDSN_of_native.mpr
      ⟨q, h, hclash, rfl, hpasses _ (spelling_range o)⟩
    exact ⟨cfg, hcfg⟩

end Reads

end Parse

end H2Go
