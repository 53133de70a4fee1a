import H2Go.DSN.Verbatim

/-!
This module contains the settings of a DSN on their way through the parser: the map they are inserted
into, the checks of that map, and the credentials.
-/

namespace H2Go

open Digits Strings Utf8 ExceptLemmas

section Map

variable [UnicodeTables]

def setAll (params settings : Params) : Except Err Params :=
  match settings with
  | [] => .ok params
  | kv :: settings => do
    let params ← setParam params kv.1 kv.2
    setAll params settings

def upperKeys (settings : Params) : Params := settings.map (fun kv => (toUpper kv.1, kv.2))

def ASCIIKeys (settings : Params) : Prop := ∀ kv ∈ settings, isASCII kv.1

omit [UnicodeTables] in
theorem upperByte_eq_iff (a b : UInt8) : upperByte a = upperByte b ↔ lower a = lower b := by
  have hupper : ∀ a : UInt8, (upperByte a).toNat
      = if 97 ≤ a.toNat ∧ a.toNat ≤ 122 then a.toNat - 32 else a.toNat := by
    intro a
    have := a.toNat_lt
    unfold upperByte
    split
    . rw [UInt8.toNat_ofNat']
      omega
    . rfl
  have hlower : ∀ a : UInt8, (lower a).toNat
      = if 65 ≤ a.toNat ∧ a.toNat ≤ 90 then a.toNat + 32 else a.toNat := by
    intro a
    unfold lower
    split
    . rw [UInt8.toNat_add]
      have : (32 : UInt8).toNat = 32 := rfl
      omega
    . rfl
  rw [← UInt8.toNat_inj, ← UInt8.toNat_inj, hupper, hupper, hlower, hlower]
  split_ifs <;> omega

omit [UnicodeTables] in
theorem map_upperByte_eq_iff {s t : GoString}
    : s.map upperByte = t.map upperByte ↔ s.map lower = t.map lower := by
  induction s generalizing t with
  | nil => cases t <;> simp
  | cons a s ih =>
    cases t with
    | nil => simp
    | cons b t => simp only [List.map_cons, List.cons.injEq, upperByte_eq_iff, ih]

theorem equalFold_iff_toUpper {s t : GoString} (hs : isASCII s) (ht : isASCII t)
    : equalFold s t = true ↔ toUpper s = toUpper t := by
  rw [equalFold_of_ascii hs ht, toUpper_of_ascii hs, toUpper_of_ascii ht, map_upperByte_eq_iff]

theorem mem_upperKeys {settings : Params} {x : GoString × GoString}
    : x ∈ upperKeys settings ↔ ∃ kv ∈ settings, (toUpper kv.1, kv.2) = x := by
  simp only [upperKeys, List.mem_map]

theorem mem_upperKeys_of_mem {settings : Params} {kv : GoString × GoString} (h : kv ∈ settings)
    : (toUpper kv.1, kv.2) ∈ upperKeys settings :=
  mem_upperKeys.mpr ⟨kv, h, rfl⟩

theorem upperKeys_cons (kv : GoString × GoString) (settings : Params)
    : upperKeys (kv :: settings) = (toUpper kv.1, kv.2) :: upperKeys settings := rfl

end Map

section Validate

variable [UnicodeTables]

/--
A key that needs no `IGNORE_UNKNOWN_SETTINGS`, in upper case.
-/
def recognized (key : GoString) : Bool :=
  key ∈ ascii "IGNORE_UNKNOWN_SETTINGS" :: ascii "USER" :: ascii "PASSWORD" :: ascii "QUERY_TIMEOUT"
    :: forwardSettings ++ localOnlySettings

def ValidSettings (settings : Params) : Prop :=
  (∀ x ∈ settings, x.1 = ascii "QUERY_TIMEOUT" → ∃ n, atoi (trimSpace x.2) = .ok n) ∧
    ((∀ x ∈ settings, recognized x.1) ∨
      ∃ x ∈ settings, x.1 = ascii "IGNORE_UNKNOWN_SETTINGS" ∧ isTruthy x.2)

structure ValidateSpec (params : Params) (ignoreUnknown : Bool) (unknown : List GoString)
    (r : Bool × List GoString) : Prop where
  unknown : r.2 = [] ↔ unknown = [] ∧ ∀ x ∈ upperKeys params, recognized x.1
  ignored : ((upperKeys params).map Prod.fst).Nodup →
    (r.1 = true ↔ (∃ x ∈ upperKeys params, x.1 = ascii "IGNORE_UNKNOWN_SETTINGS" ∧ isTruthy x.2) ∨
      (ascii "IGNORE_UNKNOWN_SETTINGS" ∉ (upperKeys params).map Prod.fst ∧ ignoreUnknown = true))

theorem validateParams_go_cons {kv : GoString × GoString}
    (h : toUpper kv.1 = ascii "QUERY_TIMEOUT" → ∃ n, atoi (trimSpace kv.2) = .ok n) (params : Params)
    (ignoreUnknown : Bool) (unknown : List GoString)
    : validateParams.go ignoreUnknown unknown (kv :: params)
      = validateParams.go
          (if toUpper kv.1 = ascii "IGNORE_UNKNOWN_SETTINGS" then isTruthy kv.2 else ignoreUnknown)
          (if recognized (toUpper kv.1) then unknown else unknown ++ [kv.1]) params := by
  obtain ⟨k, v⟩ := kv
  dsimp only at h ⊢
  rw [validateParams.go]
  generalize toUpper k = key at h ⊢
  by_cases h1 : key = ascii "IGNORE_UNKNOWN_SETTINGS"
  . subst h1
    rw [if_pos rfl, if_pos rfl, if_pos (by decide)]
  . rw [if_neg h1, if_neg h1]
    by_cases h2 : key = ascii "USER" ∨ key = ascii "PASSWORD"
    . rw [if_pos h2, if_pos (by rcases h2 with rfl | rfl <;> decide)]
    . rw [if_neg h2]
      by_cases h3 : key = ascii "QUERY_TIMEOUT"
      . obtain ⟨n, hn⟩ := h h3
        rw [if_pos h3, hn, if_pos (by rw [h3]; decide)]
      . rw [if_neg h3]
        have hrec : recognized key = true ↔ ¬ (key ∉ forwardSettings ∧ key ∉ localOnlySettings) := by
          rw [not_or] at h2
          simp only [recognized, List.cons_append, List.mem_cons, List.mem_append, h1, h2.1, h2.2, h3,
            false_or, decide_eq_true_eq, not_and_or, not_not]
        split
        . next h4 => rw [if_neg (fun h => hrec.mp h h4)]
        . next h4 => rw [if_pos (hrec.mpr h4)]

theorem validateParams_go_bad {kv : GoString × GoString}
    (h : toUpper kv.1 = ascii "QUERY_TIMEOUT") (hbad : ¬ ∃ n, atoi (trimSpace kv.2) = .ok n)
    (params : Params) (ignoreUnknown : Bool) (unknown : List GoString)
    : ∃ e, validateParams.go ignoreUnknown unknown (kv :: params) = .error e := by
  obtain ⟨k, v⟩ := kv
  dsimp only at h hbad
  rw [validateParams.go, h, if_neg (by decide), if_neg (by decide), if_pos rfl]
  cases hv : atoi (trimSpace v) with
  | error e => exact ⟨_, rfl⟩
  | ok n => exact absurd ⟨n, hv⟩ hbad

theorem ValidateSpec.cons {kv : GoString × GoString} {params : Params} {ignoreUnknown : Bool}
    {unknown : List GoString} {r : Bool × List GoString}
    (h : ValidateSpec params
      (if toUpper kv.1 = ascii "IGNORE_UNKNOWN_SETTINGS" then isTruthy kv.2 else ignoreUnknown)
      (if recognized (toUpper kv.1) then unknown else unknown ++ [kv.1]) r)
    : ValidateSpec (kv :: params) ignoreUnknown unknown r where
  unknown := by
    rw [h.unknown, upperKeys_cons, List.forall_mem_cons]
    split
    . next hrec => simp [hrec]
    . next hrec => simp [hrec]
  ignored hnodup := by
    rw [upperKeys_cons, List.map_cons, List.nodup_cons] at hnodup
    rw [h.ignored hnodup.2, upperKeys_cons, List.map_cons]
    simp only [List.mem_cons, exists_eq_or_imp, not_or]
    split
    . next hkey =>
      have hnone : ¬ ∃ x ∈ upperKeys params, x.1 = ascii "IGNORE_UNKNOWN_SETTINGS" ∧ isTruthy x.2 := by
        rintro ⟨x, hx, hx1, -⟩
        exact hnodup.1 (List.mem_map.mpr ⟨x, hx, by rw [hx1, hkey]⟩)
      rw [hkey] at hnodup ⊢
      simp [hnone, hnodup.1]
    . next hkey => simp [hkey, Ne.symm hkey]

theorem validateParams_go_cases (params : Params) (ignoreUnknown : Bool) (unknown : List GoString)
    : ((∀ x ∈ upperKeys params, x.1 = ascii "QUERY_TIMEOUT" → ∃ n, atoi (trimSpace x.2) = .ok n) ∧
        ∃ r, validateParams.go ignoreUnknown unknown params = .ok r ∧
          ValidateSpec params ignoreUnknown unknown r) ∨
      ((∃ x ∈ upperKeys params, x.1 = ascii "QUERY_TIMEOUT" ∧ ¬ ∃ n, atoi (trimSpace x.2) = .ok n) ∧
        ∃ e, validateParams.go ignoreUnknown unknown params = .error e) := by
  induction params generalizing ignoreUnknown unknown with
  | nil => exact .inl ⟨by simp [upperKeys], _, rfl, by simp [upperKeys], by simp [upperKeys]⟩
  | cons kv params ih =>
    rw [upperKeys_cons]
    by_cases hkv : toUpper kv.1 = ascii "QUERY_TIMEOUT" → ∃ n, atoi (trimSpace kv.2) = .ok n
    . rw [validateParams_go_cons hkv]
      rcases ih _ _ with ⟨hall, r, hr, hspec⟩ | ⟨⟨x, hx, hbad⟩, herr⟩
      . exact .inl ⟨List.forall_mem_cons.mpr ⟨hkv, hall⟩, r, hr, hspec.cons⟩
      . exact .inr ⟨⟨x, List.mem_cons_of_mem _ hx, hbad⟩, herr⟩
    . rw [Classical.not_imp] at hkv
      exact .inr ⟨⟨_, List.mem_cons_self, hkv⟩, validateParams_go_bad hkv.1 hkv.2 _ _ _⟩

end Validate

section Query

def addFirst (acc : Params) (kv : GoString × GoString) : Params :=
  if kv.1 ∈ acc.map Prod.fst then acc else acc ++ [kv]

/--
The settings without those whose key has been seen, letter for letter.
-/
def firsts (settings : Params) : Params := settings.foldl addFirst []

def heads (q : NetURL.Values) : Params := q.filterMap (fun kv => kv.2.head?.map (fun v => (kv.1, v)))

theorem parseNative_go_eq [UnicodeTables] (params : Params) (q : NetURL.Values)
    : parseNative.go params q = setAll params (heads q) := by
  induction q generalizing params with
  | nil => rfl
  | cons kv q ih =>
    obtain ⟨k, vals⟩ := kv
    cases vals with
    | nil =>
      rw [parseNative.go, ih]
      rfl
    | cons v vals =>
      have hheads : heads ((k, v :: vals) :: q) = (k, v) :: heads q := rfl
      rw [parseNative.go, hheads, setAll]
      congr 1
      funext p
      exact ih p

def FullValues (q : NetURL.Values) : Prop := ∀ kv ∈ q, kv.2 ≠ []

theorem heads_add {q : NetURL.Values} (hq : FullValues q) (k v : GoString)
    : FullValues (q.add k v) ∧
      heads (q.add k v) = addFirst (heads q) (k, v) := by
  induction q with
  | nil => exact ⟨by simp [FullValues, NetURL.Values.add], rfl⟩
  | cons kv q ih =>
    obtain ⟨k', vals⟩ := kv
    have hvals : vals ≠ [] := hq (k', vals) (by simp)
    obtain ⟨w, vals, rfl⟩ := List.exists_cons_of_ne_nil hvals
    have hrec := ih (fun kv hkv => hq kv (by simp [hkv]))
    have hheads : ∀ ws q, heads ((k', w :: ws) :: q) = (k', w) :: heads q := fun _ _ => rfl
    unfold NetURL.Values.add
    by_cases hk : k' = k
    . subst hk
      rw [if_pos rfl]
      refine ⟨?_, ?_⟩
      . intro kv hkv
        rcases List.mem_cons.mp hkv with rfl | hkv
        . simp
        . exact hq kv (by simp [hkv])
      . rw [List.cons_append, hheads, hheads, addFirst, if_pos (by simp)]
    . rw [if_neg hk]
      refine ⟨?_, ?_⟩
      . intro kv hkv
        rcases List.mem_cons.mp hkv with rfl | hkv
        . simp
        . exact hrec.1 kv hkv
      . rw [hheads, hheads, hrec.2]
        simp only [addFirst, List.map_cons, List.mem_cons, Ne.symm hk, false_or]
        split <;> rfl

def queryOf (settings : Params) : NetURL.Values :=
  settings.foldl (fun q kv => q.add kv.1 kv.2) []

theorem heads_queryOf (settings : Params) : heads (queryOf settings) = firsts settings := by
  have hfold : ∀ q : NetURL.Values, FullValues q →
      heads (settings.foldl (fun q kv => q.add kv.1 kv.2) q) = settings.foldl addFirst (heads q) := by
    induction settings with
    | nil =>
      intro q _
      rfl
    | cons kv settings ih =>
      intro q hq
      obtain ⟨hfull, hheads⟩ := heads_add hq kv.1 kv.2
      rw [List.foldl_cons, List.foldl_cons, ih _ hfull, hheads]
  exact hfold [] (by simp [FullValues])

theorem mem_addFirst {acc : Params} {kv x : GoString × GoString} (h : x ∈ addFirst acc kv)
    : x ∈ acc ∨ x = kv := by
  unfold addFirst at h
  split at h
  . exact .inl h
  . simpa using h

theorem mem_of_mem_firsts {settings : Params} {x : GoString × GoString} (h : x ∈ firsts settings)
    : x ∈ settings := by
  have hfold : ∀ settings acc : Params, x ∈ settings.foldl addFirst acc → x ∈ acc ∨ x ∈ settings := by
    intro settings
    induction settings with
    | nil =>
      intro acc h
      exact .inl h
    | cons kv settings ih =>
      intro acc h
      rw [List.foldl_cons] at h
      rcases ih (addFirst acc kv) h with h | h
      . rcases mem_addFirst h with h | rfl
        . exact .inl h
        . exact .inr (by simp)
      . exact .inr (by simp [h])
  simpa using hfold settings [] h

theorem exists_mem_firsts {settings : Params} {kv : GoString × GoString} (h : kv ∈ settings)
    : ∃ v, (kv.1, v) ∈ firsts settings := by
  have hkeep : ∀ (settings acc : Params) (x : GoString × GoString), x ∈ acc →
      x ∈ settings.foldl addFirst acc := by
    intro settings
    induction settings with
    | nil =>
      intro acc x h
      exact h
    | cons kv settings ih =>
      intro acc x h
      refine ih _ x ?_
      unfold addFirst
      split
      . exact h
      . exact List.mem_append_left _ h
  have hfold : ∀ acc : Params, ∃ v, (kv.1, v) ∈ settings.foldl addFirst acc := by
    induction settings with
    | nil => simp at h
    | cons kv' settings ih =>
      intro acc
      rcases List.mem_cons.mp h with rfl | h
      . by_cases hmem : kv.1 ∈ acc.map Prod.fst
        . obtain ⟨x, hx, hkey⟩ := List.mem_map.mp hmem
          refine ⟨x.2, hkeep settings (addFirst acc kv) _ ?_⟩
          unfold addFirst
          rw [if_pos hmem, ← hkey]
          exact hx
        . refine ⟨kv.2, hkeep settings (addFirst acc kv) _ ?_⟩
          unfold addFirst
          rw [if_neg hmem]
          simp
      . exact ih h (addFirst acc kv')
  exact hfold []

end Query

section Credentials

variable [UnicodeTables]

def setCredentials (cfg : ParsedDSN) (settings : Params) : ParsedDSN :=
  settings.foldl (fun cfg kv => cfg.setCredential kv.1 kv.2) cfg

theorem setCredential_with_params (cfg : ParsedDSN) (params p : Params) (key val : GoString)
    : { ({ cfg with params } : ParsedDSN).setCredential key val with params := p }
      = ({ cfg with params := p } : ParsedDSN).setCredential key val := by
  unfold ParsedDSN.setCredential
  split
  . rfl
  . split <;> rfl

theorem setCredentials_fields (cfg : ParsedDSN) (settings : Params)
    : (setCredentials cfg settings).params = cfg.params ∧
      (setCredentials cfg settings).host = cfg.host ∧
      (setCredentials cfg settings).port = cfg.port := by
  induction settings generalizing cfg with
  | nil => exact ⟨rfl, rfl, rfl⟩
  | cons kv settings ih =>
    obtain ⟨h1, h2, h3⟩ := ih (cfg.setCredential kv.1 kv.2)
    have hfields : (cfg.setCredential kv.1 kv.2).params = cfg.params ∧
        (cfg.setCredential kv.1 kv.2).host = cfg.host ∧
        (cfg.setCredential kv.1 kv.2).port = cfg.port := by
      unfold ParsedDSN.setCredential
      split
      . exact ⟨rfl, rfl, rfl⟩
      . split <;> exact ⟨rfl, rfl, rfl⟩
    exact ⟨h1.trans hfields.1, h2.trans hfields.2.1, h3.trans hfields.2.2⟩

end Credentials

section Accept

variable [UnicodeTables]

def ValidAddress (host port : GoString) : Prop :=
  host ≠ [] ∧ ∃ n, atoi port = .ok n ∧ 1 ≤ n ∧ n ≤ 65535

theorem validate_eq_ok_iff {o : MapOrder} {cfg cfg' : ParsedDSN}
    : validate o cfg = .ok cfg' ↔
      ValidAddress cfg.host cfg.port ∧ validateParams o cfg.params = .ok () ∧ cfg' = cfg := by
  constructor
  . intro h
    have heq := eq_of_validate h
    unfold validate at h
    split at h
    . cases h
    . next hne =>
      rw [bind_eq_ok] at h
      obtain ⟨n, hn, h⟩ := h
      rw [mapError_eq_ok] at hn
      split at h
      . cases h
      . next hrange =>
        rw [bind_eq_ok] at h
        obtain ⟨_, hvalid, -⟩ := h
        exact ⟨⟨hne, n, hn, by omega, by omega⟩, hvalid, heq⟩
  . rintro ⟨⟨hne, n, hn, hlow, hhigh⟩, hvalid, rfl⟩
    unfold validate
    rw [if_neg hne, hn]
    simp only [bind, Except.bind, Except.mapError, hvalid]
    rw [if_neg (by omega)]

def nativeBase (input : GoString) (u : NetURL.URL) (params : Params) : ParsedDSN :=
  { ({ (ParsedDSN.empty input).setAddress u with
        database := trimPrefix (ascii "/") u.path } : ParsedDSN).setUserinfo u.user with
    tls := (ascii "h2+ssl://").isPrefixOf input, params }

theorem parseNative_eq_ok_iff {o : MapOrder} {input : GoString} {cfg : ParsedDSN}
    : parseNative o input = .ok cfg ↔
      ∃ u p, NetURL.parse input = .ok u ∧ setAll [] (heads (o.range u.query)) = .ok p ∧
        validate o (nativeBase input u p) = .ok cfg := by
  have hparams : ∀ (input : GoString) (u : NetURL.URL),
      (({ (ParsedDSN.empty input).setAddress u with
          database := trimPrefix (ascii "/") u.path } : ParsedDSN).setUserinfo u.user).params = [] := by
    intro input u
    unfold ParsedDSN.setUserinfo
    split <;> rfl
  unfold parseNative
  simp only [bind_eq_ok, mapError_eq_ok, parseNative_go_eq, hparams]
  constructor
  . rintro ⟨u, hu, p, hp, hvalid⟩
    exact ⟨u, p, hu, hp, hvalid⟩
  . rintro ⟨u, p, hu, hp, hvalid⟩
    exact ⟨u, hu, p, hp, hvalid⟩

end Accept

def accepts (r : Except Err ParsedDSN) (P : ParsedDSN → Bool) : Bool :=
  match r with
  | .ok cfg => P cfg
  | .error _ => false

theorem exists_of_accepts {r : Except Err ParsedDSN} {P : ParsedDSN → Bool} (h : accepts r P = true)
    : ∃ cfg, r = .ok cfg ∧ P cfg = true := by
  cases r with
  | error e => cases h
  | ok cfg => exact ⟨cfg, rfl, h⟩

theorem exists_of_not_accepts {r : Except Err ParsedDSN} (h : accepts r (fun _ => true) = false)
    : ∃ e, r = .error e := by
  cases r with
  | error e => exact ⟨e, rfl⟩
  | ok cfg => cases h

end H2Go
