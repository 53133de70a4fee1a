import H2Go.TypeInfo.Lemmas

/-!
This module contains the wire format of type descriptions and result columns, and that the metadata
readers return what is described.
-/

namespace H2Go

open BigEndian

/--
A name as it is sent, `none` is the null string.
-/
abbrev WireName := Option (List UInt16)

namespace WireName

def frame (name : WireName) : List UInt8 :=
  match name with
  | none => intBytes 4 (-1)
  | some us => Tr.unitsFrame (us.map UInt16.toNat)

def text (name : WireName) : Option GoString := name.map (fun us => utf16Decode (us.map UInt16.toNat))

def Fits (name : WireName) : Prop := ∀ us ∈ name, us.length ≤ 2 ^ 28

end WireName

/--
Types without attributes. `unknown` is the type that is sent for an unknown one.
-/
inductive PlainKind where
  | unknown
  | null
  | boolean
  | tinyint
  | smallint
  | integer
  | bigint
  | date
  | uuid

inductive SizedKind where
  | char
  | varchar
  | varcharIgnoreCase
  | binary
  | varbinary
  | decfloat
  | javaObject
  | json

inductive LobKind where
  | blob
  | clob

inductive FloatKind where
  | real
  | double

inductive ClockKind where
  | time
  | timeTZ
  | timestamp
  | timestampTZ

inductive WholeInterval where
  | year
  | month
  | day
  | hour
  | minute
  | yearToMonth
  | dayToHour
  | dayToMinute
  | hourToMinute

inductive SecondInterval where
  | second
  | dayToSecond
  | hourToSecond
  | minuteToSecond

def PlainKind.ti : PlainKind → Int
  | unknown => -1
  | null => 0
  | boolean => 1
  | tinyint => 2
  | smallint => 3
  | integer => 4
  | bigint => 5
  | date => 10
  | uuid => 20

def PlainKind.valueType : PlainKind → ValueType
  | unknown => .null
  | null => .null
  | boolean => .boolean
  | tinyint => .tinyint
  | smallint => .smallint
  | integer => .integer
  | bigint => .bigint
  | date => .date
  | uuid => .uuid

def SizedKind.ti : SizedKind → Int
  | char => 21
  | varchar => 13
  | varcharIgnoreCase => 14
  | binary => 42
  | varbinary => 12
  | decfloat => 43
  | javaObject => 19
  | json => 40

def SizedKind.valueType : SizedKind → ValueType
  | char => .char
  | varchar => .varchar
  | varcharIgnoreCase => .varcharIgnoreCase
  | binary => .binary
  | varbinary => .varbinary
  | decfloat => .decfloat
  | javaObject => .javaObject
  | json => .json

def LobKind.ti : LobKind → Int
  | blob => 15
  | clob => 16

def LobKind.valueType : LobKind → ValueType
  | blob => .blob
  | clob => .clob

def FloatKind.ti : FloatKind → Int
  | real => 8
  | double => 7

def FloatKind.valueType : FloatKind → ValueType
  | real => .real
  | double => .double

def ClockKind.ti : ClockKind → Int
  | time => 9
  | timeTZ => 41
  | timestamp => 11
  | timestampTZ => 24

def ClockKind.valueType : ClockKind → ValueType
  | time => .time
  | timeTZ => .timeTZ
  | timestamp => .timestamp
  | timestampTZ => .timestampTZ

def WholeInterval.ti : WholeInterval → Int
  | year => 26
  | month => 27
  | day => 28
  | hour => 29
  | minute => 30
  | yearToMonth => 32
  | dayToHour => 33
  | dayToMinute => 34
  | hourToMinute => 36

def SecondInterval.ti : SecondInterval → Int
  | second => 31
  | dayToSecond => 35
  | hourToSecond => 37
  | minuteToSecond => 38

inductive GeometryShape where
  | plain
  | typed (type : Int16)
  | located (srid : Int32)
  | typedLocated (type : Int16) (srid : Int32)

def GeometryShape.frame : GeometryShape → List UInt8
  | plain => [0]
  | typed type => 1 :: intBytes 2 type.toInt
  | located srid => 2 :: intBytes 4 srid.toInt
  | typedLocated type srid => 3 :: (intBytes 2 type.toInt ++ intBytes 4 srid.toInt)

/--
The type of a column as the server has it. In a field of one byte 0xFF stands for the default.
-/
inductive TypeDesc where
  | plain (kind : PlainKind)
  | sized (kind : SizedKind) (precision : Int32)
  | lob (kind : LobKind) (precision : Int64)
  | numeric (precision scale : Int32) (extended : Bool)
  | floating (kind : FloatKind) (precision : UInt8)
  | clock (kind : ClockKind) (scale : UInt8)
  | wholeInterval (kind : WholeInterval) (precision : UInt8)
  | secondInterval (kind : SecondInterval) (precision scale : UInt8)
  | enum (names : List WireName)
  | geometry (shape : GeometryShape)
  | array (precision : Int32) (element : TypeDesc)
  | row (fields : List (WireName × TypeDesc))

namespace TypeDesc

mutual

def frame : TypeDesc → List UInt8
  | plain kind => intBytes 4 kind.ti
  | sized kind precision => intBytes 4 kind.ti ++ intBytes 4 precision.toInt
  | lob kind precision => intBytes 4 kind.ti ++ intBytes 8 precision.toInt
  | numeric precision scale extended =>
    intBytes 4 6 ++ (intBytes 4 precision.toInt ++ (intBytes 4 scale.toInt ++
      [if extended then 1 else 0]))
  | floating kind precision => intBytes 4 kind.ti ++ [precision]
  | clock kind scale => intBytes 4 kind.ti ++ [scale]
  | wholeInterval kind precision => intBytes 4 kind.ti ++ [precision]
  | secondInterval kind precision scale => intBytes 4 kind.ti ++ ([precision] ++ [scale])
  | enum names => intBytes 4 25 ++ (intBytes 4 names.length ++ names.flatMap WireName.frame)
  | geometry shape => intBytes 4 22 ++ shape.frame
  | array precision element => intBytes 4 17 ++ (intBytes 4 precision.toInt ++ element.frame)
  | row fields => intBytes 4 39 ++ (intBytes 4 fields.length ++ fieldsFrame fields)

def fieldsFrame : List (WireName × TypeDesc) → List UInt8
  | [] => []
  | (name, type) :: fields => (name.frame ++ type.frame) ++ fieldsFrame fields

end

def byteField (b : UInt8) : Int := if b = 0xFF then -1 else int8 b

/--
The described type. Only the element type of an `ARRAY` is kept of the types within a type.
-/
def info : TypeDesc → TypeInfo
  | plain kind => unsized kind.valueType
  | sized kind precision => { unsized kind.valueType with precision := precision.toInt }
  | lob kind precision => { unsized kind.valueType with precision := precision.toInt }
  | numeric precision scale _ =>
    { unsized .numeric with precision := precision.toInt, scale := scale.toInt }
  | floating kind precision => { unsized kind.valueType with precision := byteField precision }
  | clock kind scale => { unsized kind.valueType with scale := byteField scale }
  | wholeInterval _ precision => { unsized .interval with precision := byteField precision }
  | secondInterval _ precision scale =>
    { unsized .interval with precision := byteField precision, scale := byteField scale }
  | enum _ => unsized .enum
  | geometry _ => unsized .geometry
  | array precision element =>
    { unsized .array with precision := precision.toInt, extTypeInfo := some element.info }
  | row _ => unsized .row
where
  unsized (valueType : ValueType) : TypeInfo :=
    { valueType, precision := -1, scale := -1, nullable := columnNullableUnknown, extTypeInfo := none }

mutual

def Fits : TypeDesc → Prop
  | enum names => names.length < 2 ^ 31 ∧ ∀ name ∈ names, name.Fits
  | array _ element => element.Fits
  | row fields => fields.length < 2 ^ 31 ∧ FieldsFit fields
  | _ => True

def FieldsFit : List (WireName × TypeDesc) → Prop
  | [] => True
  | (name, type) :: fields => (name.Fits ∧ type.Fits) ∧ FieldsFit fields

end

end TypeDesc

structure ColumnDesc where
  columnAlias : WireName
  schemaName : WireName
  tableName : WireName
  columnName : WireName
  type : TypeDesc
  identity : Bool
  nullable : Int32

namespace ColumnDesc

def frame (col : ColumnDesc) : List UInt8 :=
  col.columnAlias.frame ++ (col.schemaName.frame ++ (col.tableName.frame ++ (col.columnName.frame ++
    (col.type.frame ++ ([if col.identity then 1 else 0] ++ intBytes 4 col.nullable.toInt)))))

/--
The described column, a null name is the empty one.
-/
def column (col : ColumnDesc) : ResultColumn :=
  { columnAlias := col.columnAlias.text.getD [], schemaName := col.schemaName.text.getD [],
    tableName := col.tableName.text.getD [], columnName := col.columnName.text.getD [],
    typeInfo := { col.type.info with nullable := col.nullable.toInt }, identity := col.identity,
    nullable := col.nullable.toInt }

structure Fits (col : ColumnDesc) : Prop where
  columnAlias : col.columnAlias.Fits
  schemaName : col.schemaName.Fits
  tableName : col.tableName.Fits
  columnName : col.columnName.Fits
  type : col.type.Fits

end ColumnDesc

namespace Tr

variable {σ : Type}

theorem frame_readName {name : WireName} (h : name.Fits)
    : Frame (readString : Prog Err (Tr σ) _) name.text name.frame := by
  cases name with
  | none => exact frame_readString_null
  | some us =>
    apply frame_readString_units
    . intro u hu
      obtain ⟨x, -, rfl⟩ := List.mem_map.mp hu
      exact x.toNat_lt
    . rw [List.length_map]
      exact h us rfl

theorem readTypeInfo_eq : (readTypeInfo : Prog Err (Tr σ) _) = readTypeInfoWith readTypeInfo := by
  have hstuck : ∀ t : Tr σ, readTypeInfoFuel (t.inp.length + 1) t ≠ .stuck :=
    fun t => (progress_readTypeInfoFuel (Nat.lt_succ_self _)).ne_stuck (Nat.le_refl _)
  have hle : ∀ fuel, (readTypeInfoFuel fuel : Prog Err (Tr σ) _).Le readTypeInfo := by
    intro fuel t
    by_cases h : readTypeInfoFuel fuel t = .stuck
    . exact .inl h
    . exact .inr (Prog.eq_of_le_succ readTypeInfoFuel_mono h (hstuck t))
  funext t
  exact (readTypeInfoWith_mono (hle t.inp.length) t).eq (hstuck t)

section Scalar

variable (self : Prog Err (Tr σ) TypeInfo)

theorem frame_readTypeInfoWith {ti : Int} {t : ValueType} {info : TypeInfo} {bs : List UInt8}
    (hti : (ti, t) ∈ tiTable)
    (h : Frame (readTypeInfoFields self ti (TypeDesc.info.unsized t)) info bs)
    : Frame (readTypeInfoWith self) info (intBytes 4 ti ++ bs) := by
  have hrange : ∀ entry ∈ tiTable, -2 ^ 31 ≤ entry.1 ∧ entry.1 < 2 ^ 31 := by decide
  have hlookup : ∀ entry ∈ tiTable, tiToValueType entry.1 = some entry.2 := by decide
  apply (frame_readInt32 (hrange _ hti).1 (hrange _ hti).2).mapErr.bind
  rw [hlookup _ hti]
  exact h

end Scalar

theorem frame_int32 (x : Int32) : Frame (readInt32 : Prog Err (Tr σ) _) x.toInt (intBytes 4 x.toInt) :=
  frame_readInt32 x.le_toInt x.toInt_lt

theorem frame_int64 (x : Int64) : Frame (readInt64 : Prog Err (Tr σ) _) x.toInt (intBytes 8 x.toInt) :=
  frame_readInt64 x.le_toInt x.toInt_lt

theorem frame_int16 (x : Int16) : Frame (readInt16 : Prog Err (Tr σ) _) x.toInt (intBytes 2 x.toInt) :=
  frame_readInt16 x.le_toInt x.toInt_lt

theorem ite_byteField (b : UInt8) {α : Type} (f : Int → α)
    : (if b ≠ 0xFF then f (int8 b) else f (-1)) = f (TypeDesc.byteField b) := by
  unfold TypeDesc.byteField
  by_cases h : b = 0xFF
  . rw [if_neg (not_not_intro h), if_pos h]
  . rw [if_pos h, if_neg h]

section Types

variable (self : Prog Err (Tr σ) TypeInfo)

theorem frame_plain (kind : PlainKind)
    : Frame (readTypeInfoWith self) (TypeDesc.plain kind).info (TypeDesc.plain kind).frame := by
  have hti : (kind.ti, kind.valueType) ∈ tiTable := by cases kind <;> decide
  have hfields : Frame (readTypeInfoFields self kind.ti (TypeDesc.info.unsized kind.valueType))
      (TypeDesc.info.unsized kind.valueType) [] := by
    cases kind <;> exact Frame.pure
  have := frame_readTypeInfoWith self hti hfields
  rwa [List.append_nil] at this

theorem frame_sized (kind : SizedKind) (precision : Int32)
    : Frame (readTypeInfoWith self) (TypeDesc.sized kind precision).info
        (TypeDesc.sized kind precision).frame := by
  have hti : (kind.ti, kind.valueType) ∈ tiTable := by cases kind <;> decide
  apply frame_readTypeInfoWith self hti
  cases kind <;> exact (frame_int32 precision).mapErr.bind_nil Frame.pure

theorem frame_lob (kind : LobKind) (precision : Int64)
    : Frame (readTypeInfoWith self) (TypeDesc.lob kind precision).info
        (TypeDesc.lob kind precision).frame := by
  have hti : (kind.ti, kind.valueType) ∈ tiTable := by cases kind <;> decide
  apply frame_readTypeInfoWith self hti
  cases kind <;> exact (frame_int64 precision).mapErr.bind_nil Frame.pure

theorem frame_numeric (precision scale : Int32) (extended : Bool)
    : Frame (readTypeInfoWith self) (TypeDesc.numeric precision scale extended).info
        (TypeDesc.numeric precision scale extended).frame := by
  apply frame_readTypeInfoWith self (t := .numeric) (by decide)
  apply (frame_int32 precision).mapErr.bind
  apply (frame_int32 scale).mapErr.bind
  exact (frame_readBool extended).mapErr.bind_nil Frame.pure

theorem frame_floating (kind : FloatKind) (precision : UInt8)
    : Frame (readTypeInfoWith self) (TypeDesc.floating kind precision).info
        (TypeDesc.floating kind precision).frame := by
  have hti : (kind.ti, kind.valueType) ∈ tiTable := by cases kind <;> decide
  apply frame_readTypeInfoWith self hti
  have hvalue := ite_byteField precision
    (fun p => { TypeDesc.info.unsized kind.valueType with precision := p })
  cases kind <;> exact (frame_readByte precision).mapErr.bind_nil (hvalue ▸ Frame.pure)

theorem frame_clock (kind : ClockKind) (scale : UInt8)
    : Frame (readTypeInfoWith self) (TypeDesc.clock kind scale).info
        (TypeDesc.clock kind scale).frame := by
  have hti : (kind.ti, kind.valueType) ∈ tiTable := by cases kind <;> decide
  apply frame_readTypeInfoWith self hti
  have hvalue := ite_byteField scale
    (fun s => { TypeDesc.info.unsized kind.valueType with scale := s })
  cases kind <;> exact (frame_readByte scale).mapErr.bind_nil (hvalue ▸ Frame.pure)

theorem frame_wholeInterval (kind : WholeInterval) (precision : UInt8)
    : Frame (readTypeInfoWith self) (TypeDesc.wholeInterval kind precision).info
        (TypeDesc.wholeInterval kind precision).frame := by
  have hti : (kind.ti, .interval) ∈ tiTable := by cases kind <;> decide
  have hwhole : intervalHasFractionalSeconds kind.ti = false := by cases kind <;> decide
  apply frame_readTypeInfoWith self hti
  have hvalue := ite_byteField precision
    (fun p => { TypeDesc.info.unsized .interval with precision := p })
  apply (frame_readByte precision).mapErr.bind_nil
  dsimp only
  rw [hwhole]
  exact hvalue ▸ Frame.pure

theorem frame_secondInterval (kind : SecondInterval) (precision scale : UInt8)
    : Frame (readTypeInfoWith self) (TypeDesc.secondInterval kind precision scale).info
        (TypeDesc.secondInterval kind precision scale).frame := by
  have hti : (kind.ti, .interval) ∈ tiTable := by cases kind <;> decide
  have hseconds : intervalHasFractionalSeconds kind.ti = true := by cases kind <;> decide
  apply frame_readTypeInfoWith self hti
  have hprecision : (if precision ≠ 0xFF then
        { TypeDesc.info.unsized .interval with precision := int8 precision }
      else TypeDesc.info.unsized .interval)
      = { TypeDesc.info.unsized .interval with precision := TypeDesc.byteField precision } :=
    ite_byteField precision (fun p => { TypeDesc.info.unsized .interval with precision := p })
  have hscale := ite_byteField scale (fun s =>
    { TypeDesc.info.unsized .interval with precision := TypeDesc.byteField precision, scale := s })
  apply (frame_readByte precision).mapErr.bind
  dsimp only at hprecision ⊢
  rw [hseconds, if_pos rfl, hprecision]
  exact (frame_readByte scale).mapErr.bind_nil (hscale ▸ Frame.pure)

theorem frame_enum {names : List WireName} (h : (TypeDesc.enum names).Fits)
    : Frame (readTypeInfoWith self) (TypeDesc.enum names).info (TypeDesc.enum names).frame := by
  obtain ⟨hlen, hnames⟩ := h
  apply frame_readTypeInfoWith self (t := .enum) (by decide)
  have hloop : Frame (skipExtTypeInfo self .enum) ()
      (intBytes 4 names.length ++ names.flatMap WireName.frame) := by
    apply (frame_readInt32 (by omega) (by omega)).mapErr.bind
    rw [Int.toNat_natCast]
    exact Frame.iter (g := fun acc _ => acc)
      (fun name hname _ _ => (frame_readName (hnames name hname)).mapErr.bind_nil Frame.pure) 0 ()
  exact hloop.bind_nil Frame.pure

theorem frame_geometry (shape : GeometryShape)
    : Frame (readTypeInfoWith self) (TypeDesc.geometry shape).info
        (TypeDesc.geometry shape).frame := by
  apply frame_readTypeInfoWith self (t := .geometry) (by decide)
  have hskip : Frame (skipExtTypeInfo self .geometry) () shape.frame := by
    cases shape with
    | plain => exact (frame_readByte 0).mapErr.bind_nil Frame.pure
    | typed type =>
      exact (frame_readByte 1).mapErr.bind ((frame_int16 type).mapErr.bind_nil Frame.pure)
    | located srid =>
      exact (frame_readByte 2).mapErr.bind ((frame_int32 srid).mapErr.bind_nil Frame.pure)
    | typedLocated type srid =>
      exact (frame_readByte 3).mapErr.bind ((frame_int16 type).mapErr.bind
        ((frame_int32 srid).mapErr.bind_nil Frame.pure))
  exact hskip.bind_nil Frame.pure

end Types

mutual

theorem frame_readTypeInfo : (d : TypeDesc) → d.Fits →
    Frame (readTypeInfo : Prog Err (Tr σ) _) d.info d.frame
  | .plain kind, _ => readTypeInfo_eq ▸ frame_plain _ kind
  | .sized kind precision, _ => readTypeInfo_eq ▸ frame_sized _ kind precision
  | .lob kind precision, _ => readTypeInfo_eq ▸ frame_lob _ kind precision
  | .numeric precision scale extended, _ =>
    readTypeInfo_eq ▸ frame_numeric _ precision scale extended
  | .floating kind precision, _ => readTypeInfo_eq ▸ frame_floating _ kind precision
  | .clock kind scale, _ => readTypeInfo_eq ▸ frame_clock _ kind scale
  | .wholeInterval kind precision, _ => readTypeInfo_eq ▸ frame_wholeInterval _ kind precision
  | .secondInterval kind precision scale, _ =>
    readTypeInfo_eq ▸ frame_secondInterval _ kind precision scale
  | .enum names, h => readTypeInfo_eq ▸ frame_enum _ h
  | .geometry shape, _ => readTypeInfo_eq ▸ frame_geometry _ shape
  | .array precision element, h => by
    have helement := frame_readTypeInfo element h
    rw [readTypeInfo_eq]
    apply frame_readTypeInfoWith _ (t := .array) (by decide)
    exact (frame_int32 precision).mapErr.bind (helement.mapErr.bind_nil Frame.pure)
  | .row fields, h => by
    have hfields := frame_skipFields fields h.2 0
    have hlen := h.1
    have hskip : Frame (skipExtTypeInfo readTypeInfo .row : Prog Err (Tr σ) _) ()
        (intBytes 4 fields.length ++ TypeDesc.fieldsFrame fields) := by
      apply (frame_readInt32 (by omega) (by omega)).mapErr.bind
      rw [Int.toNat_natCast]
      exact hfields
    rw [readTypeInfo_eq]
    apply frame_readTypeInfoWith _ (t := .row) (by decide)
    exact hskip.bind_nil Frame.pure

theorem frame_skipFields : (fields : List (WireName × TypeDesc)) → TypeDesc.FieldsFit fields →
    (i0 : Nat) → Frame (Prog.iter fields.length i0 () (fun _ _ => do
        let _ ← wrapErr "h2go: skipExtTypeInfo: failed to read ROW field name: %w" [] readString
        let _ ← wrapErr "h2go: skipExtTypeInfo: failed to read ROW field type: %w" [] readTypeInfo
        pure ()) : Prog Err (Tr σ) _) () (TypeDesc.fieldsFrame fields)
  | [], _, _ => Frame.pure
  | (name, type) :: fields, h, i0 => by
    have htype := frame_readTypeInfo type h.1.2
    have hfields := frame_skipFields fields h.2 (i0 + 1)
    refine Frame.bind ?_ hfields
    apply (frame_readName h.1.1).mapErr.bind
    exact htype.mapErr.bind_nil Frame.pure

end

theorem frame_readResultColumn {col : ColumnDesc} (h : col.Fits) {version : Int}
    (hversion : tcpProtocolVersion20 ≤ version) (i : Nat)
    : Frame (readResultColumn version i : Prog Err (Tr σ) _) col.column col.frame := by
  have hskip : (skipDisplaySize version i : Prog Err (Tr σ) _) = pure () := by
    unfold skipDisplaySize
    rw [if_neg (by omega)]
  unfold readResultColumn
  apply (frame_readName h.columnAlias).mapErr.bind
  apply (frame_readName h.schemaName).mapErr.bind
  apply (frame_readName h.tableName).mapErr.bind
  apply (frame_readName h.columnName).mapErr.bind
  apply (frame_readTypeInfo col.type h.type).mapErr.bind
  rw [hskip, Prog.pure_bind]
  apply (frame_readBool col.identity).mapErr.bind
  exact (frame_int32 col.nullable).mapErr.bind_nil Frame.pure

def describedMeta (cols : List ColumnDesc) : ResultMeta :=
  { columnCount := cols.length, columns := cols.map ColumnDesc.column }

theorem frame_readResultMeta {cols : List ColumnDesc} (hlen : cols.length ≤ 2 ^ 20)
    (h : ∀ col ∈ cols, col.Fits) {version : Int} (hversion : tcpProtocolVersion20 ≤ version)
    : Frame (readResultMeta cols.length version : Prog Err (Tr σ) _) (describedMeta cols)
        (cols.flatMap ColumnDesc.frame) := by
  have hcap : (cols.length : Int) ≤ maxWireCollectionElements := by
    unfold maxWireCollectionElements
    omega
  have hpass : ∀ col ∈ cols, ∀ (i : Nat) (columns : List ResultColumn),
      Frame (do
        let col ← readResultColumn version i
        pure (columns ++ [col]) : Prog Err (Tr σ) _) (columns ++ [col.column]) col.frame :=
    fun col hcol i columns => (frame_readResultColumn (h col hcol) hversion i).bind_nil Frame.pure
  have hcollect : ∀ (cols : List ColumnDesc) (columns : List ResultColumn),
      cols.foldl (fun columns col => columns ++ [col.column]) columns
        = columns ++ cols.map ColumnDesc.column := by
    intro cols columns
    induction cols generalizing columns with
    | nil => simp
    | cons col cols ih => simp [ih]
  have hloop := Frame.iter hpass 0 []
  rw [hcollect, List.nil_append] at hloop
  unfold readResultMeta
  rw [if_neg (by omega), if_neg (by omega), Prog.make_eq (by omega), Prog.pure_bind, Int.toNat_natCast]
  exact hloop.bind_nil Frame.pure

/--
Metadata within the caps is read as it is described.
-/
theorem metadata_exact
    : (∀ d : TypeDesc, d.Fits → Frame (readTypeInfo : Prog Err (Tr σ) _) d.info d.frame) ∧
      (∀ cols : List ColumnDesc, cols.length ≤ 2 ^ 20 → (∀ col ∈ cols, col.Fits) →
        ∀ version, tcpProtocolVersion20 ≤ version →
          Frame (readResultMeta cols.length version : Prog Err (Tr σ) _) (describedMeta cols)
            (cols.flatMap ColumnDesc.frame)) :=
  ⟨frame_readTypeInfo, fun _ hlen h _ hversion => frame_readResultMeta hlen h hversion⟩

def nestedColumn : ColumnDesc :=
  { columnAlias := some [65], schemaName := none, tableName := none, columnName := none
    type := .row [(some [66], .array 3 (.array (-1) (.enum [some [67], none]))),
      (none, .secondInterval .dayToSecond 0xFF 6)]
    identity := true, nullable := 1 }

theorem metadata_exact_nested
    : Frame (readTypeInfo : Prog Err (Tr Silent) _) nestedColumn.type.info nestedColumn.type.frame ∧
      Frame (readResultMeta 1 20 : Prog Err (Tr Silent) _) (describedMeta [nestedColumn])
        ([nestedColumn].flatMap ColumnDesc.frame) := by
  have hname : ∀ name ∈ [none, some [65], some [66], some [67]], WireName.Fits name := by
    intro name hname us hus
    have : ∀ us : List UInt16, some us ∈ [none, some [65], some [66], some [67]] → us.length ≤ 2 ^ 28 := by
      simp
    exact this us (Option.mem_def.mp hus ▸ hname)
  have htype : nestedColumn.type.Fits := by
    refine ⟨by decide, ⟨hname _ (by simp), by decide, ?_⟩, ⟨hname _ (by simp), True.intro⟩, True.intro⟩
    intro name hmem
    exact hname name (by simp at hmem ⊢; tauto)
  have hcol : nestedColumn.Fits :=
    ⟨hname _ (by simp [nestedColumn]), hname _ (by simp [nestedColumn]), hname _ (by simp [nestedColumn]),
      hname _ (by simp [nestedColumn]), htype⟩
  exact ⟨metadata_exact.1 nestedColumn.type htype,
    metadata_exact.2 [nestedColumn] (by decide) (by simpa using hcol) 20 (by decide)⟩

def overfullColumns : List ColumnDesc := List.replicate (2 ^ 20 + 1) nestedColumn

theorem overfullColumns_refused
    : ¬ Frame (readResultMeta overfullColumns.length 20 : Prog Err (Tr Unit) _)
        (describedMeta overfullColumns) (overfullColumns.flatMap ColumnDesc.frame) := by
  intro h
  let t : Tr Unit := Input.move [] (overfullColumns.flatMap ColumnDesc.frame) default
  have hrun := h.exact t [] (by simp [t])
  have hlen : overfullColumns.length = 2 ^ 20 + 1 := List.length_replicate
  unfold readResultMeta at hrun
  rw [hlen, if_neg (by omega), if_pos (by decide)] at hrun
  cases hrun

end Tr

end H2Go
