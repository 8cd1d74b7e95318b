import Idax.Data.Database
import Idax.Data.TypeInfo

/-!
This module contains `read_typed` and `write_typed`.
-/

namespace Idax
namespace Data

inductive TypedValueKind where
  | unsignedInteger
  | signedInteger
  | floatingPoint
  | pointer
  | string
  | bytes
  | array
  deriving DecidableEq, Repr

/--
A value with one payload for each kind. A `double` is given by its bits.
-/
structure TypedValue where
  kind : TypedValueKind := .bytes
  unsignedValue : UInt64 := 0
  signedValue : Int64 := 0
  floatingValue : UInt64 := 0
  pointerValue : UInt64 := UInt64.ofNat badAddress
  stringValue : List UInt8 := []
  bytes : List UInt8 := []
  elements : List TypedValue := []

structure FloatCasts where
  toDouble : UInt32 → UInt64
  toFloat : UInt64 → UInt32

def kMaxTypedDepth : Nat := 64

def fitsUnsignedWidth (width : Nat) (value : UInt64) : Bool :=
  match width with
  | 1 => decide (value.toNat ≤ 0xff)
  | 2 => decide (value.toNat ≤ 0xffff)
  | 4 => decide (value.toNat ≤ 0xffffffff)
  | 8 => true
  | _ => false

def fitsSignedWidth (width : Nat) (value : Int64) : Bool :=
  match width with
  | 1 => decide (-0x80 ≤ value.toInt) && decide (value.toInt ≤ 0x7f)
  | 2 => decide (-0x8000 ≤ value.toInt) && decide (value.toInt ≤ 0x7fff)
  | 4 => decide (-0x80000000 ≤ value.toInt) && decide (value.toInt ≤ 0x7fffffff)
  | 8 => true
  | _ => false

def unsupportedWidth (width : Nat) : Error :=
  .unsupported "Unsupported fixed-width integer size" (toString width)

def readUnsignedFixed (db : Database) (address width : Nat) : Result UInt64 :=
  match width with
  | 1 => (db.readByte address).map (·.toUInt64)
  | 2 => (db.readWord address).map (·.toUInt64)
  | 4 => (db.readDword address).map (·.toUInt64)
  | 8 => db.readQword address
  | _ => .error (unsupportedWidth width)

def writeUnsignedFixed (db : Database) (address width : Nat) (value : UInt64) : Status × Database :=
  if !fitsUnsignedWidth width value then
    (.error (.validation "Unsigned value does not fit target width"
      (toString value ++ " for width=" ++ toString width)), db)
  else
    match width with
    | 1 => db.writeByte address value.toUInt8
    | 2 => db.writeWord address value.toUInt16
    | 4 => db.writeDword address value.toUInt32
    | 8 => db.writeQword address value
    | _ => (.error (unsupportedWidth width), db)

def writeSignedFixed (db : Database) (address width : Nat) (value : Int64) : Status × Database :=
  if !fitsSignedWidth width value then
    (.error (.validation "Signed value does not fit target width"
      (toString value ++ " for width=" ++ toString width)), db)
  else
    match width with
    | 1 => db.writeByte address value.toInt8.toUInt8
    | 2 => db.writeWord address value.toInt16.toUInt16
    | 4 => db.writeDword address value.toInt32.toUInt32
    | 8 => db.writeQword address value.toUInt64
    | _ => (.error (unsupportedWidth width), db)

def readSignedFixed (db : Database) (address width : Nat) : Result Int64 := do
  let value ← readUnsignedFixed db address width
  match width with
  | 1 => .ok value.toUInt8.toInt8.toInt64
  | 2 => .ok value.toUInt16.toInt16.toInt64
  | 4 => .ok value.toUInt32.toInt32.toInt64
  | 8 => .ok value.toInt64
  | _ => .error (unsupportedWidth width)

def isPrintableAscii (byte : UInt8) : Bool :=
  0x20 ≤ byte && byte ≤ 0x7e

def byteArrayValue (raw : List UInt8) : TypedValue :=
  let text := raw.takeWhile (· != 0)
  if 0 < text.length && text.all isPrintableAscii then
    { kind := .string, stringValue := text, bytes := raw }
  else
    { kind := .bytes, bytes := raw }

def elementAddress (message : String) (address elementSize i : Nat) : Result Nat :=
  if i ≠ 0 ∧ elementSize > badAddress / i then
    .error (.validation message)
  else
    let offset := elementSize * i
    if address > badAddress - offset then
      .error (.validation message)
    else
      .ok (address + offset)

def readElements (read : Nat → Result TypedValue) (address elementSize : Nat)
    : (count i : Nat) → Result (List TypedValue)
  | 0, _ => .ok []
  | count + 1, i => do
    let elementAddress ←
      elementAddress "Typed array read address overflow" address elementSize i
    let value ← read elementAddress
    let values ← readElements read address elementSize count (i + 1)
    .ok (value :: values)

def writeElements (write : Nat → TypedValue → Database → Status × Database)
    (address elementSize : Nat) : (i : Nat) → List TypedValue → Database → Status × Database
  | _, [], db => (ok, db)
  | i, value :: values, db =>
    match elementAddress "Typed array write address overflow" address elementSize i with
    | .error e => (.error e, db)
    | .ok elementAddress =>
      match write elementAddress value db with
      | (.ok _, db) => writeElements write address elementSize (i + 1) values db
      -- The elements before the one that fails stay written.
      | (.error e, db) => (.error e, db)

variable (casts : FloatCasts)

def readScalar (db : Database) (address : Nat) (effectiveType : TypeInfo) (typeSize : Nat)
    : Result TypedValue := do
  if effectiveType.isPointer then
    let raw ← readUnsignedFixed db address typeSize
    .ok { kind := .pointer, pointerValue := raw, unsignedValue := raw }
  else if effectiveType.isFloatingPoint then
    if typeSize = 4 then
      let raw ← db.readDword address
      .ok { kind := .floatingPoint, floatingValue := casts.toDouble raw }
    else if typeSize = 8 then
      let raw ← db.readQword address
      .ok { kind := .floatingPoint, floatingValue := raw }
    else
      let raw ← db.readBytes address typeSize
      .ok { kind := .bytes, bytes := raw }
  else if effectiveType.isInteger || effectiveType.isEnum then
    -- No fixed width is left for it, so a wide integer comes back as its bytes.
    if 8 < typeSize then
      let raw ← db.readBytes address typeSize
      .ok { kind := .bytes, bytes := raw }
    else if effectiveType.isSigned then
      let value ← readSignedFixed db address typeSize
      .ok { kind := .signedInteger, signedValue := value }
    else
      let value ← readUnsignedFixed db address typeSize
      .ok { kind := .unsignedInteger, unsignedValue := value }
  else
    let raw ← db.readBytes address typeSize
    .ok { kind := .bytes, bytes := raw }

/--
The number counts the levels of nesting that are left, `kMaxTypedDepth - depth + 1` in the code.
-/
def readTypedImpl (db : Database) : (levels : Nat) → (address : Nat) → TypeInfo → Result TypedValue
  | 0, _, _ => .error (.validation "Maximum typed-value recursion depth exceeded")
  | levels + 1, address, typeInfo => do
    let effectiveType ← resolveIfTypedef typeInfo
    if effectiveType.isArray then
      let elementType ← effectiveType.arrayElementType
      let length ← effectiveType.arrayLength
      if isByteInteger elementType then
        -- Signed or not, an array of single bytes is read as a whole.
        let raw ← db.readBytes address length
        .ok (byteArrayValue raw)
      else
        let elementSize ← checkedTypeSize elementType
        let elements ← readElements (fun a => readTypedImpl db levels a elementType) address
          elementSize length 0
        .ok { kind := .array, elements }
    else
      let typeSize ← checkedTypeSize effectiveType
      readScalar casts db address effectiveType typeSize

def byteArrayContent (value : TypedValue) (length : Nat) : Result (List UInt8) :=
  if value.kind = .bytes then
    if value.bytes.length ≠ length then
      .error (.validation "Byte-array write size mismatch"
        (toString value.bytes.length ++ " != " ++ toString length))
    else
      .ok value.bytes
  else if length < value.stringValue.length then
    .error (.validation "String does not fit destination array"
      (toString value.stringValue.length ++ " > " ++ toString length))
  else
    -- The array is padded with zeros to its end.
    .ok (value.stringValue ++ List.replicate (length - value.stringValue.length) 0)

def writeScalar (address : Nat) (effectiveType : TypeInfo) (typeSize : Nat) (value : TypedValue)
    (db : Database) : Status × Database :=
  if effectiveType.isPointer then
    match value.kind with
    | .pointer => writeUnsignedFixed db address typeSize value.pointerValue
    | .unsignedInteger => writeUnsignedFixed db address typeSize value.unsignedValue
    | _ => (.error (.validation "Pointer write requires pointer or unsigned integer value"), db)
  else if effectiveType.isFloatingPoint then
    if value.kind ≠ .floatingPoint then
      (.error (.validation "Floating-point write requires floating-point value"), db)
    else if typeSize = 4 then
      db.writeDword address (casts.toFloat value.floatingValue)
    else if typeSize = 8 then
      db.writeQword address value.floatingValue
    else
      (.error (.unsupported "Unsupported floating-point width" (toString typeSize)), db)
  else if effectiveType.isInteger || effectiveType.isEnum then
    if effectiveType.isSigned then
      match value.kind with
      | .signedInteger => writeSignedFixed db address typeSize value.signedValue
      | .unsignedInteger =>
        -- Either kind of integer value is taken, but only where its number fits.
        if 2 ^ 63 - 1 < value.unsignedValue.toNat then
          (.error (.validation "Unsigned value cannot be represented as signed integer"), db)
        else
          writeSignedFixed db address typeSize value.unsignedValue.toInt64
      | _ =>
        (.error (.validation "Signed integer write requires signed/unsigned integer value"), db)
    else
      match value.kind with
      | .unsignedInteger => writeUnsignedFixed db address typeSize value.unsignedValue
      | .signedInteger =>
        if value.signedValue < 0 then
          (.error (.validation "Negative value cannot be written to unsigned integer type"), db)
        else
          writeUnsignedFixed db address typeSize value.signedValue.toUInt64
      | _ =>
        (.error (.validation "Unsigned integer write requires signed/unsigned integer value"), db)
  else if value.kind ≠ .bytes then
    (.error (.validation "Unsupported typed write: use byte payload for this type"), db)
  else if value.bytes.length ≠ typeSize then
    (.error (.validation "Byte write size mismatch"
      (toString value.bytes.length ++ " != " ++ toString typeSize)), db)
  else
    db.writeBytes address value.bytes

def writeTypedImpl
    : (levels : Nat) → (address : Nat) → TypeInfo → TypedValue → Database → Status × Database
  | 0, _, _, _, db => (.error (.validation "Maximum typed-value recursion depth exceeded"), db)
  | levels + 1, address, typeInfo, value, db =>
    match resolveIfTypedef typeInfo with
    | .error e => (.error e, db)
    | .ok effectiveType =>
      if effectiveType.isArray then
        match effectiveType.arrayElementType, effectiveType.arrayLength with
        | .error e, _ => (.error e, db)
        | _, .error e => (.error e, db)
        | .ok elementType, .ok length =>
          if isByteInteger elementType && (value.kind = .bytes || value.kind = .string) then
            match byteArrayContent value length with
            | .error e => (.error e, db)
            | .ok raw => db.writeBytes address raw
          else if value.kind ≠ .array then
            (.error (.validation "Typed array write requires array/bytes/string value"), db)
          else if value.elements.length ≠ length then
            (.error (.validation "Array element count mismatch"
              (toString value.elements.length ++ " != " ++ toString length)), db)
          else
            match checkedTypeSize elementType with
            | .error e => (.error e, db)
            | .ok elementSize =>
              writeElements (fun a v db => writeTypedImpl levels a elementType v db) address
                elementSize 0 value.elements db
      else
        match checkedTypeSize effectiveType with
        | .error e => (.error e, db)
        | .ok typeSize => writeScalar casts address effectiveType typeSize value db

def readTyped (db : Database) (address : Nat) (typeInfo : TypeInfo) : Result TypedValue :=
  readTypedImpl casts db (kMaxTypedDepth + 1) address typeInfo

def writeTyped (db : Database) (address : Nat) (typeInfo : TypeInfo) (value : TypedValue)
    : Status × Database :=
  writeTypedImpl casts (kMaxTypedDepth + 1) address typeInfo value db

end Data
end Idax
