import H2Go.Value.RoundTrip

/-!
This module contains temporal parameters: the packed date as the shifts and masks of 64-bit words, and
the round trip of a point in time through each of the temporal types.
-/

namespace H2Go

open BigEndian

section Bits

/--
`int64((year << 9) | (int(month) << 5) | day)`
-/
def packDateBits (year month day : BitVec 64) : BitVec 64 := (year <<< 9) ||| (month <<< 5) ||| day

/--
Year, month and day as `unpackDateValue` takes them from the word, the shifts are arithmetic.
-/
def unpackDateBits (dateValue : BitVec 64) : BitVec 64 × BitVec 64 × BitVec 64 :=
  (dateValue.sshiftRight 9, dateValue.sshiftRight 5 &&& 0x0F, dateValue &&& 0x1F)

theorem toNat_ofInt_of_nonneg {x : Int} (h : 0 ≤ x) (hx : x < 2 ^ 64)
    : (BitVec.ofInt 64 x).toNat = x.toNat := by
  rw [BitVec.toNat_ofInt]
  omega

theorem packDateBits_eq {year month day : Int} (hy : -2 ^ 53 < year ∧ year < 2 ^ 53)
    (hm : 1 ≤ month ∧ month ≤ 12) (hd : 1 ≤ day ∧ day ≤ 31)
    : (packDateBits (BitVec.ofInt 64 year) (BitVec.ofInt 64 month) (BitVec.ofInt 64 day)).toInt
        = packDateValue year month day := by
  have hmonth := toNat_ofInt_of_nonneg (x := month) (by omega) (by omega)
  have hday := toNat_ofInt_of_nonneg (x := day) (by omega) (by omega)
  have hyear : (BitVec.ofInt 64 year).toNat = (year % 2 ^ 64).toNat := BitVec.toNat_ofInt _
  -- the fields do not overlap, so the disjunctions are sums
  have hlow : (month.toNat <<< 5) % 2 ^ 64 ||| day.toNat = month.toNat * 2 ^ 5 + day.toNat := by
    rw [Nat.shiftLeft_eq, Nat.mod_eq_of_lt (by omega), ← Nat.shiftLeft_eq,
      Nat.shiftLeft_add_eq_or_of_lt (by omega)]
  have hhigh : ((year % 2 ^ 64).toNat <<< 9) % 2 ^ 64 = (year % 2 ^ 55).toNat <<< 9 := by
    rw [Nat.shiftLeft_eq, Nat.shiftLeft_eq]
    omega
  have hnat : (packDateBits (BitVec.ofInt 64 year) (BitVec.ofInt 64 month)
      (BitVec.ofInt 64 day)).toNat
        = (year % 2 ^ 55).toNat * 2 ^ 9 + (month.toNat * 2 ^ 5 + day.toNat) := by
    unfold packDateBits
    rw [BitVec.toNat_or, BitVec.toNat_or, BitVec.toNat_shiftLeft, BitVec.toNat_shiftLeft, hmonth, hday,
      hyear, Nat.or_assoc, hlow, hhigh, ← Nat.shiftLeft_add_eq_or_of_lt (by omega), Nat.shiftLeft_eq]
  rw [BitVec.toInt_eq_toNat_cond, hnat]
  unfold packDateValue
  split
  . omega
  . omega

theorem toInt_and_mask (x : BitVec 64) {mask : BitVec 64} {k : Nat} (hk : k < 63)
    (hmask : mask.toNat = 2 ^ k - 1)
    : (x &&& mask).toInt = x.toInt % 2 ^ k := by
  have hnat : (x &&& mask).toNat = x.toNat % 2 ^ k := by
    rw [BitVec.toNat_and, hmask, Nat.and_two_pow_sub_one_eq_mod]
  have hlt : x.toNat % 2 ^ k < 2 ^ 63 :=
    Nat.lt_trans (Nat.mod_lt _ (Nat.two_pow_pos k)) (Nat.pow_lt_pow_right (by decide) hk)
  have hdvd : ((2 : Int) ^ k) ∣ 2 ^ 64 := pow_dvd_pow 2 (by omega)
  have hword : x.toInt % 2 ^ 64 = (x.toNat : Int) % 2 ^ 64 := by
    rw [BitVec.toInt_eq_toNat_cond]
    split
    . rfl
    . omega
  rw [BitVec.toInt_eq_toNat_of_lt (by omega), hnat, Int.natCast_emod, Int.natCast_pow, Nat.cast_ofNat,
    ← Int.emod_emod_of_dvd x.toInt hdvd, hword, Int.emod_emod_of_dvd _ hdvd]

theorem unpackDateBits_eq {dateValue : Int} (h : -2 ^ 63 ≤ dateValue ∧ dateValue < 2 ^ 63)
    : let (y, m, d) := unpackDateBits (BitVec.ofInt 64 dateValue)
      (y.toInt, m.toInt, d.toInt) = unpackDateValue dateValue := by
  have hword : (BitVec.ofInt 64 dateValue).toInt = dateValue := by
    rw [BitVec.toInt_ofInt, Int.bmod_eq_of_le (by omega) (by omega)]
  have hshift : ∀ k, ((BitVec.ofInt 64 dateValue).sshiftRight k).toInt = dateValue / 2 ^ k := by
    intro k
    rw [BitVec.toInt_sshiftRight, hword, Int.shiftRight_eq_div_pow, Int.natCast_pow]
    rfl
  unfold unpackDateBits unpackDateValue
  dsimp only
  rw [hshift, toInt_and_mask _ (k := 4) (by decide) rfl, toInt_and_mask _ (k := 5) (by decide) rfl,
    hshift, hword]

end Bits

section Civil

def isLeap (year : Int) : Bool := year % 4 = 0 ∧ (year % 100 ≠ 0 ∨ year % 400 = 0)

def daysIn (year month : Int) : Int :=
  if month = 2 then
    if isLeap year then 29 else 28
  else if month = 4 ∨ month = 6 ∨ month = 9 ∨ month = 11 then
    30
  else
    31

def GoTime.ValidDate (ts : GoTime) : Prop := ts.day ≤ daysIn ts.year ts.month

instance (ts : GoTime) : Decidable ts.ValidDate := inferInstanceAs (Decidable (_ ≤ _))

namespace GoTime

/--
The function `time.Date` returns the fields of `ts` when it is given them, if the date exists.
-/
def LawfulDate [GoStd] (ts : GoTime) : Prop :=
  ts.ValidDate → GoStd.date ts.year ts.month ts.day ts.hour ts.minute ts.second ts.nsec ts.offset = ts

theorem january : (1 : Int) ≤ 1 ∧ (1 : Int) ≤ 12 := by decide

theorem first : (1 : Int) ≤ 1 ∧ (1 : Int) ≤ 31 := by decide

theorem zero_hour : (0 : Int) ≤ 0 ∧ (0 : Int) ≤ 23 := by decide

theorem zero_sixtieth : (0 : Int) ≤ 0 ∧ (0 : Int) ≤ 59 := by decide

theorem zero_nsec : (0 : Int) ≤ 0 ∧ (0 : Int) ≤ 999999999 := by decide

def clock (ts : GoTime) : GoTime :=
  { ts with
    year := 0, month := 1, day := 1
    month_range := january
    day_range := first }

def utc (ts : GoTime) : GoTime := { ts with offset := 0 }

def midnight (ts : GoTime) : GoTime :=
  { ts with
    hour := 0, minute := 0, second := 0, nsec := 0
    hour_range := zero_hour
    minute_range := zero_sixtieth
    second_range := zero_sixtieth
    nsec_range := zero_nsec }

/--
What is left of a point in time in a value of a temporal type. The types without a zone keep the
civil fields and have the offset of UTC.
-/
def as (ts : GoTime) (t : ValueType) : GoTime :=
  match t with
  | .date => ts.midnight.utc
  | .time => ts.clock.utc
  | .timeTZ => ts.clock
  | .timestampTZ => ts
  | _ => ts.utc

end GoTime

def temporalTypes : List ValueType := [.date, .time, .timeTZ, .timestamp, .timestampTZ]

def temporalFrame (t : ValueType) (dateValue nanos offset : Int) : List UInt8 :=
  match t with
  | .date => intBytes 8 dateValue
  | .time => intBytes 8 nanos
  | .timeTZ => intBytes 8 nanos ++ intBytes 4 offset
  | .timestampTZ => intBytes 8 dateValue ++ (intBytes 8 nanos ++ intBytes 4 offset)
  | _ => intBytes 8 dateValue ++ intBytes 8 nanos

def temporalTime [GoStd] (t : ValueType) (dateValue nanos offset : Int) : GoTime :=
  match t with
  | .date => dateValueToTime dateValue
  | .time => nanosOfDayToTime nanos
  | .timeTZ => nanosOfDayToTimeTZ nanos offset
  | .timestampTZ => timestampToTimeTZ dateValue nanos offset
  | _ => timestampToTime dateValue nanos

theorem unpackDateValue_packDateValue (year : Int) {month day : Int} (hm : 1 ≤ month ∧ month ≤ 12)
    (hd : 1 ≤ day ∧ day ≤ 31)
    : unpackDateValue (packDateValue year month day) = (year, month, day) := by
  unfold unpackDateValue packDateValue
  simp only [Prod.mk.injEq]
  omega

theorem splitNanos_of_nonneg {nanos : Int} (h : 0 ≤ nanos)
    : splitNanos nanos = (nanos / 3600000000000, nanos % 3600000000000 / 60000000000,
        nanos % 60000000000 / 1000000000, nanos % 1000000000) := by
  have hhour : 0 ≤ nanos % (60 * 60 * 1000000000) := by omega
  have hminute : 0 ≤ nanos % (60 * 60 * 1000000000) % (60 * 1000000000) := by omega
  unfold splitNanos
  dsimp only
  rw [Int.tdiv_eq_ediv_of_nonneg h, Int.tmod_eq_emod_of_nonneg h, Int.tdiv_eq_ediv_of_nonneg hhour,
    Int.tmod_eq_emod_of_nonneg hhour, Int.tdiv_eq_ediv_of_nonneg hminute,
    Int.tmod_eq_emod_of_nonneg hminute]
  simp only [Prod.mk.injEq]
  omega

theorem splitNanos_nanosOfDay (ts : GoTime)
    : splitNanos (nanosOfDay ts) = (ts.hour, ts.minute, ts.second, ts.nsec) := by
  have := ts.hour_range
  have := ts.minute_range
  have := ts.second_range
  have := ts.nsec_range
  rw [splitNanos_of_nonneg (by unfold nanosOfDay; omega)]
  unfold nanosOfDay
  simp only [Prod.mk.injEq]
  omega

theorem exists_nanosOfDay (year : Int) {month day nanos : Int} (hm : 1 ≤ month ∧ month ≤ 12)
    (hd : 1 ≤ day ∧ day ≤ 31) (hn : 0 ≤ nanos ∧ nanos < 86400 * 10 ^ 9) (offset : Int)
    : ∃ ts : GoTime, ts.year = year ∧ ts.month = month ∧ ts.day = day ∧ nanosOfDay ts = nanos ∧
        ts.offset = offset := by
  refine ⟨{ year, month, day, offset, hour := nanos / 3600000000000,
            minute := nanos % 3600000000000 / 60000000000,
            second := nanos % 60000000000 / 1000000000, nsec := nanos % 1000000000,
            month_range := hm, day_range := hd, hour_range := by omega, minute_range := by omega,
            second_range := by omega, nsec_range := by omega }, rfl, rfl, rfl, ?_, rfl⟩
  unfold nanosOfDay
  dsimp only
  omega

theorem temporalTime_eq [GoStd] {ts : GoTime} {t : ValueType} (hdate : (ts.as t).LawfulDate)
    (hvalid : ts.ValidDate)
    : temporalTime t (packDateValue ts.year ts.month ts.day) (nanosOfDay ts) ts.offset = ts.as t := by
  have hunpack := unpackDateValue_packDateValue ts.year ts.month_range ts.day_range
  have hsplit := splitNanos_nanosOfDay ts
  have hclock : ts.clock.ValidDate := show (1 : Int) ≤ daysIn 0 1 by decide
  unfold GoTime.as at hdate
  unfold temporalTime GoTime.as
  split
  . unfold dateValueToTime
    rw [hunpack]
    exact hdate hvalid
  . unfold nanosOfDayToTime nanosOfDayToTimeTZ
    rw [hsplit]
    exact hdate hclock
  . unfold nanosOfDayToTimeTZ
    rw [hsplit]
    exact hdate hclock
  . unfold timestampToTimeTZ
    rw [hunpack, hsplit]
    exact hdate hvalid
  . unfold timestampToTime timestampToTimeTZ
    rw [hunpack, hsplit]
    split at hdate
    . contradiction
    . contradiction
    . contradiction
    . contradiction
    . exact hdate hvalid

theorem temporalFrame_as (ts : GoTime) (t : ValueType)
    : temporalFrame t (packDateValue (ts.as t).year (ts.as t).month (ts.as t).day)
        (nanosOfDay (ts.as t)) (ts.as t).offset
      = temporalFrame t (packDateValue ts.year ts.month ts.day) (nanosOfDay ts) ts.offset := by
  cases t <;> rfl

end Civil

namespace Tr

variable {σ ρ : Type} [GoStd]

omit [GoStd] in
theorem writes_writeTimeValue (ts : GoTime) {paramType : Option TypeInfo} {t : ValueType}
    (hparam : paramValueType paramType = some t) (ht : t ∈ temporalTypes)
    : Writes (writeTimeValue ts paramType : Prog Err (Tr σ) _) ()
        (intBytes 4 t.code ++ temporalFrame t (packDateValue ts.year ts.month ts.day) (nanosOfDay ts)
          ts.offset) := by
  unfold writeTimeValue
  rw [hparam]
  have hint32 : ∀ (format : String) (x : Int),
      Writes (wrapErr format [] (writeInt32 x) : Prog Err (Tr σ) _) () (intBytes 4 x) :=
    fun format x => writes_wrapErr _ _ (writes_writeInt32 x)
  have hint64 : ∀ (format : String) (x : Int),
      Writes (wrapErr format [] (writeInt64 x) : Prog Err (Tr σ) _) () (intBytes 8 x) :=
    fun format x => writes_wrapErr _ _ (writes_writeInt64 x)
  rcases List.mem_cons.mp ht with rfl | ht
  . exact (hint32 _ _).bind (hint64 _ _)
  rcases List.mem_cons.mp ht with rfl | ht
  . exact (hint32 _ _).bind (hint64 _ _)
  rcases List.mem_cons.mp ht with rfl | ht
  . exact (hint32 _ _).bind ((hint64 _ _).bind (hint32 _ _))
  rcases List.mem_cons.mp ht with rfl | ht
  . exact (hint32 _ _).bind ((hint64 _ _).bind (hint64 _ _))
  rw [List.mem_singleton] at ht
  subst ht
  exact (hint32 _ _).bind ((hint64 _ _).bind ((hint64 _ _).bind (hint32 _ _)))

theorem frame_readScalarValue_temporal {t : ValueType} (ht : t ∈ temporalTypes)
    {dateValue nanos offset : Int} (hd : -2 ^ 63 ≤ dateValue ∧ dateValue < 2 ^ 63)
    (hn : -2 ^ 63 ≤ nanos ∧ nanos < 2 ^ 63) (ho : -2 ^ 31 ≤ offset ∧ offset < 2 ^ 31)
    : Frame (readScalarValue t : Prog Err (Tr σ) _) (.time (temporalTime t dateValue nanos offset))
        (temporalFrame t dateValue nanos offset) := by
  have hdate := frame_readInt64 (σ := σ) hd.1 hd.2
  have hnanos := frame_readInt64 (σ := σ) hn.1 hn.2
  have hoffset := frame_readInt32 (σ := σ) ho.1 ho.2
  rcases List.mem_cons.mp ht with rfl | ht
  . exact hdate.mapErr.bind_nil Frame.pure
  rcases List.mem_cons.mp ht with rfl | ht
  . exact hnanos.mapErr.bind_nil Frame.pure
  rcases List.mem_cons.mp ht with rfl | ht
  . exact hnanos.mapErr.bind (hoffset.mapErr.bind_nil Frame.pure)
  rcases List.mem_cons.mp ht with rfl | ht
  . exact hdate.mapErr.bind (hnanos.mapErr.bind_nil Frame.pure)
  rw [List.mem_singleton] at ht
  subst ht
  exact hdate.mapErr.bind (hnanos.mapErr.bind (hoffset.mapErr.bind_nil Frame.pure))

omit [GoStd] in
theorem range_packDateValue {year month day : Int} (hy : -2 ^ 53 < year ∧ year < 2 ^ 53)
    (hm : 1 ≤ month ∧ month ≤ 12) (hd : 1 ≤ day ∧ day ≤ 31)
    : -2 ^ 63 ≤ packDateValue year month day ∧ packDateValue year month day < 2 ^ 63 := by
  unfold packDateValue
  omega

omit [GoStd] in
theorem range_nanosOfDay (ts : GoTime) : -2 ^ 63 ≤ nanosOfDay ts ∧ nanosOfDay ts < 2 ^ 63 := by
  have := ts.hour_range
  have := ts.minute_range
  have := ts.second_range
  have := ts.nsec_range
  unfold nanosOfDay
  omega

theorem temporal_frames [Peer ρ] {ts : GoTime} {t : ValueType} (hdate : (ts.as t).LawfulDate)
    (hvalid : ts.ValidDate) (hyear : -2 ^ 53 < ts.year ∧ ts.year < 2 ^ 53)
    (hoffset : -2 ^ 31 ≤ ts.offset ∧ ts.offset < 2 ^ 31) (ht : t ∈ temporalTypes)
    (colType : Option TypeInfo)
    : Frame (readValue colType : Prog Err (Tr ρ) _) (.time (ts.as t))
        (intBytes 4 t.code ++ temporalFrame t (packDateValue ts.year ts.month ts.day) (nanosOfDay ts)
          ts.offset) := by
  have hscalar : ∀ t ∈ temporalTypes, IsScalar t := by decide
  have hread := frame_readScalarValue_temporal (σ := ρ) ht
    (range_packDateValue hyear ts.month_range ts.day_range) (range_nanosOfDay ts) hoffset
  rw [temporalTime_eq hdate hvalid] at hread
  exact frame_readValue_scalar (hscalar t ht) hread colType

omit [GoStd] in
theorem daysIn_le (year month : Int) : daysIn year month ≤ 31 := by
  unfold daysIn
  split
  . split <;> decide
  . split <;> decide

theorem temporal_round_trip [Peer ρ] {t : ValueType} (ht : t ∈ temporalTypes) {paramType : TypeInfo}
    (hparam : paramType.valueType = t)
    : (∀ ts : GoTime, (ts.as t).LawfulDate → ts.ValidDate → -2 ^ 53 < ts.year ∧ ts.year < 2 ^ 53 →
        -2 ^ 31 ≤ ts.offset ∧ ts.offset < 2 ^ 31 →
        Encodes (ρ := ρ) (writeValue (.time ts) (some paramType) : Prog Err (Tr σ) Unit)
          (.time (ts.as t))) ∧
      (∀ year month day nanos offset : Int, -2 ^ 53 < year ∧ year < 2 ^ 53 →
        1 ≤ month ∧ month ≤ 12 → 1 ≤ day ∧ day ≤ daysIn year month →
        0 ≤ nanos ∧ nanos < 86400 * 10 ^ 9 → -2 ^ 31 ≤ offset ∧ offset < 2 ^ 31 →
        let dateValue := packDateValue year month day
        -- the one point in time with these fields
        (∀ ts : GoTime,
          (ts.year, ts.month, ts.day, nanosOfDay ts, ts.offset) = (year, month, day, nanos, offset) →
          ts.LawfulDate ∧ (ts.as t).LawfulDate) →
        let ts := timestampToTimeTZ dateValue nanos offset
        (packDateValue ts.year ts.month ts.day = dateValue ∧ nanosOfDay ts = nanos ∧
          ts.offset = offset) ∧
        ∃ v, (∀ colType, Frame (readValue colType : Prog Err (Tr ρ) _) v
            (intBytes 4 t.code ++ temporalFrame t dateValue nanos offset)) ∧
          Writes (writeValue v (some paramType) : Prog Err (Tr σ) Unit) ()
            (intBytes 4 t.code ++ temporalFrame t dateValue nanos offset)) := by
  have hsome : paramValueType (some paramType) = some t := congrArg some hparam
  constructor
  . intro ts hdate hvalid hyear hoffset
    exact ⟨_, writes_writeTimeValue ts hsome ht, temporal_frames hdate hvalid hyear hoffset ht⟩
  . intro year month day nanos offset hyear hmonth hday hnanos hoffset dateValue hdate
    have hday' : 1 ≤ day ∧ day ≤ 31 := ⟨hday.1, le_trans hday.2 (daysIn_le year month)⟩
    obtain ⟨ts, rfl, rfl, rfl, rfl, rfl⟩ := exists_nanosOfDay year hmonth hday' hnanos offset
    obtain ⟨hdate, hdate'⟩ := hdate ts rfl
    have htime := temporalTime_eq (t := .timestampTZ) hdate hday.2
    refine ⟨?_, .time (ts.as t), temporal_frames hdate' hday.2 hyear hoffset ht, ?_⟩
    . rw [show timestampToTimeTZ _ _ _ = _ from htime]
      exact ⟨rfl, rfl, rfl⟩
    . have hwrites := writes_writeTimeValue (σ := σ) (ts.as t) hsome ht
      rwa [temporalFrame_as] at hwrites

end Tr

namespace CivilDates

def civilDate (fallback : GoTime) (year month day hour minute second nsec offset : Int) : GoTime :=
  if h : (1 ≤ month ∧ month ≤ 12) ∧ (1 ≤ day ∧ day ≤ 31) ∧ (0 ≤ hour ∧ hour ≤ 23) ∧
      (0 ≤ minute ∧ minute ≤ 59) ∧ (0 ≤ second ∧ second ≤ 59) ∧ (0 ≤ nsec ∧ nsec ≤ 999999999) then
    { year, month, day, hour, minute, second, nsec, offset, month_range := h.1, day_range := h.2.1,
      hour_range := h.2.2.1, minute_range := h.2.2.2.1, second_range := h.2.2.2.2.1,
      nsec_range := h.2.2.2.2.2 }
  else
    fallback

open StandIn in
scoped instance : GoStd :=
  { (inferInstance : GoStd) with date := civilDate (GoStd.date 0 1 1 0 0 0 0 0) }

end CivilDates

section

open CivilDates

theorem lawful_civilDates (ts : GoTime) : ts.LawfulDate := by
  intro _
  exact dif_pos ⟨ts.month_range, ts.day_range, ts.hour_range, ts.minute_range, ts.second_range,
    ts.nsec_range⟩

def leapDay : GoTime :=
  { year := -4, month := 2, day := 29, hour := 23, minute := 59, second := 59, nsec := 999999999,
    offset := -18000, month_range := by decide, day_range := by decide, hour_range := by decide,
    minute_range := by decide, second_range := by decide, nsec_range := by decide }

def timestampTZParam : TypeInfo :=
  { valueType := .timestampTZ, precision := -1, scale := -1, nullable := columnNullableUnknown,
    extTypeInfo := none }

theorem temporal_round_trip_leapDay
    : Tr.Encodes (ρ := Silent) (Tr.writeValue (.time leapDay) (some timestampTZParam) :
        Prog Err (Tr Silent) Unit) (.time leapDay) ∧
      ∃ v, ∀ colType, Frame (Tr.readValue colType : Prog Err (Tr Silent) _) v
        (intBytes 4 ValueType.timestampTZ.code ++
          temporalFrame .timestampTZ (packDateValue (-4) 2 29) 86399999999999 (-18000)) := by
  have htrip := Tr.temporal_round_trip (σ := Silent) (ρ := Silent)
    (by decide : ValueType.timestampTZ ∈ temporalTypes) (rfl : timestampTZParam.valueType = .timestampTZ)
  refine ⟨htrip.1 leapDay (lawful_civilDates _) (by decide) (by decide) (by decide), ?_⟩
  obtain ⟨v, hread, -⟩ := (htrip.2 (-4) 2 29 86399999999999 (-18000) (by decide) (by decide) (by decide)
    (by decide) (by decide) (fun ts _ => ⟨lawful_civilDates ts, lawful_civilDates _⟩)).2
  exact ⟨v, hread⟩

end

end H2Go
