import ChipEight.Implementation
import ChipEight.Layout
import ChipEight.Text.ByteCount
import ChipEight.Text.Hex
import ChipEight.Text.Integer
import ChipEight.Text.Template
import ChipEight.Value

/-!
Everything that an operation can refuse, by cause. `Failure.message` is the one place
that words them.
-/

namespace ChipEight

inductive FileProblem where
  | missing
  | isDirectory
  | notDirectory
  | nameTooLong
  | other (reason : String)
  deriving DecidableEq, Repr

def FileProblem.text : FileProblem → String
  | .missing => "No such file or directory"
  | .isDirectory => "Is a directory"
  | .notDirectory => "Not a directory"
  | .nameTooLong => "File name too long"
  | .other reason => reason

inductive RomProblem where
  | unreadable (problem : FileProblem)
  | empty
  | tooLong (size : Nat)
  deriving DecidableEq, Repr

def RomProblem.text : RomProblem → String
  | .unreadable problem => problem.text
  | .empty => "file is empty"
  | .tooLong size =>
    toString size ++ " bytes does not fit in " ++ toString maxRomSize ++ " bytes of program memory"

inductive Use where
  | conversion
  | real
  | count
  | extent
  | negation
  | iteration
  | length
  | material (product : String)
  | index (sequence : String)
  | bound
  | sample
  deriving DecidableEq, Repr

def Use.refusal (purpose : Use) (kind : String) : String :=
  match purpose with
  | .conversion =>
    "int() argument must be a string, a bytes-like object or a real number, not '" ++ kind ++ "'"
  | .real => "float() argument must be a string or a real number, not '" ++ kind ++ "'"
  | .count => "'" ++ kind ++ "' object cannot be interpreted as an integer"
  | .extent =>
    if kind = "bool" then "an integer is required"
    else "'" ++ kind ++ "' object cannot be interpreted as an integer"
  | .negation => "bad operand type for unary -: '" ++ kind ++ "'"
  | .iteration => "'" ++ kind ++ "' object is not iterable"
  | .length => "object of type '" ++ kind ++ "' has no len()"
  | .material product =>
    if kind = "str" then "string argument without an encoding"
    else "cannot convert '" ++ kind ++ "' object to " ++ product
  | .index sequence => sequence ++ " indices must be integers or slices, not " ++ kind
  | .bound => "slice indices must be integers or None or have an __index__ method"
  | .sample => "a bytes-like object is required, not '" ++ kind ++ "'"

def Value.refusal (operator : String) (left right : Value) : String :=
  let (l, r) := (left.kind, right.kind)
  if operator ∈ ["+", "+="] ∧ left.isSequence then
    "can only concatenate " ++ l ++ " (not \"" ++ r ++ "\") to " ++ l
  else if operator = "*" ∧ (left.isSequence ∨ right.isSequence) then
    "can't multiply sequence by non-int of type '" ++ (if left.isSequence then r else l) ++ "'"
  else "unsupported operand type(s) for " ++ operator ++ ": '" ++ l ++ "' and '" ++ r ++ "'"

def shapeText : List Nat → String
  | [n] => "(" ++ toString n ++ ",)"
  | lengths => "(" ++ ", ".intercalate (lengths.map toString) ++ ")"

def cellCount (axes : List Nat) : Nat :=
  axes.foldr (· * ·) 1

def roomLimit : Nat := Nat.pow 2 28

def allotmentLimit : Nat := 31 * Nat.pow 2 30

def levelLimit : Nat := 64

inductive Failure where
  | unknownOpcode (word : Nat)
  | stackOverflow (address : Value)
  | stackUnderflow
  | outOfBounds (address length : Value)
  | invalidFontByte (value : Value) (position : Nat)
  | romUnavailable (path : String) (problem : RomProblem)
  | unknownImplementation (value : Value)
  | rateNotPositive (setting : String) (rate : Value)
  | idleSleepNegative (seconds : Value)
  | unknownSetting (owner name : String)
  | nulInPath
  | noRegister (index : Number)
  | noCell (index : Int) (size : Nat)
  | noRoom (bits : Nat) (value : Int)
  /-- What can be no flat index: neither an integer nor a list of them, or too far from zero. -/
  | notIndex
  | maskUnlike (axis size length : Nat)
  | tooManyIndices (axes indices : Nat)
  | manyPixels
  | uneven (shape : List Nat)
  | tooDeep
  | runUnlike (size bits : Nat)
  | runTooShort (bits : Nat)
  | notBytes
  | notHex (place : Nat)
  | noFloat
  | unfit (value : Value) (purpose : Use)
  | operands (operator : String) (left right : Value)
  | incomparable (relation : String) (left right : Value)
  | template (problem : Text.TemplateProblem)
  | notLiteral (text : String)
  | tooManyDigits (digits : Nat)
  | unwritable
  | notReal (text : String)
  | notCharacter (code : Int)
  | notByte
  | notFinite
  | notNumber
  | noRemainder (ofDoubles : Bool)
  | noFormat (code : Char) (value : Value)
  | negativeCount
  | endless
  | endlessText
  | endlessBytes
  | noMemory
  | endlessIndex
  | noStride
  | negativePicture
  | endlessPicture
  | hugePicture
  | tooManyAxes (axes : Nat)
  | noPictureRoom (axes : List Nat)
  | brokenPicture (pixels : Value)
  | noShape (height width : Int)
  | noPlayer

def Failure.refusesSettings : Failure → Bool
  | .unknownImplementation _ | .rateNotPositive _ _ | .idleSleepNegative _ => true
  | _ => false

def fitsWord (n : Int) : Bool :=
  -(Nat.pow 2 63 : Int) ≤ n ∧ n < Nat.pow 2 63

def fitsHalfWord (n : Int) : Bool :=
  -(Nat.pow 2 31 : Int) ≤ n ∧ n < Nat.pow 2 31

def Failure.message : Failure → String
  | .unknownOpcode word => "Unknown opcode 0x" ++ Hex.padded 4 word
  | .stackOverflow _ => "Stack overflow"
  | .stackUnderflow => "Stack underflow"
  | .outOfBounds address length =>
    "Memory access out of bounds: 0x" ++ Hex.upperInt (address.toInt?.getD 0) ++ " (+"
      ++ length.plain ++ " bytes)"
  | .invalidFontByte value position =>
    "Invalid font byte " ++ value.literal ++ " at position " ++ toString position
  | .romUnavailable path problem => "Could not load ROM " ++ path ++ ": " ++ problem.text
  | .unknownImplementation value =>
    "implementation must be one of " ++ ", ".intercalate (Implementation.all.map (·.name))
      ++ ", not " ++ value.literal
  | .rateNotPositive setting rate => setting ++ " must be positive, got " ++ rate.literal
  | .idleSleepNegative seconds => "idle_sleep cannot be negative, got " ++ seconds.literal
  | .unknownSetting owner name =>
    owner ++ ".__init__() got an unexpected keyword argument '" ++ name ++ "'"
  | .nulInPath => "embedded null byte"
  | .noRegister index => "No register V" ++ index.text
  | .noCell index size =>
    "index " ++ toString index ++ " is out of bounds for axis 0 with size " ++ toString size
  | .noRoom bits value =>
    if fitsWord value then
      "Python integer " ++ toString value ++ " out of bounds for uint" ++ toString bits
    else "Python int too large to convert to C long"
  | .notIndex =>
    "only integers, slices (`:`), ellipsis (`...`), numpy.newaxis (`None`) and "
      ++ "integer or boolean arrays are valid indices"
  | .maskUnlike axis size length =>
    "boolean index did not match indexed array along axis " ++ toString axis
      ++ "; size of axis is " ++ toString size ++ " but size of corresponding boolean axis is "
      ++ toString length
  | .tooManyIndices axes indices =>
    "too many indices for array: array is " ++ toString axes ++ "-dimensional, but "
      ++ toString indices ++ " were indexed"
  | .manyPixels => "only 0-dimensional arrays can be converted to Python scalars"
  | .uneven shape =>
    "setting an array element with a sequence. The requested array has an inhomogeneous shape "
      ++ "after " ++ toString shape.length ++ " dimensions. The detected shape was "
      ++ shapeText shape ++ " + inhomogeneous part."
  | .tooDeep =>
    "setting an array element with a sequence. The requested array would exceed the maximum "
      ++ "number of dimension of " ++ toString levelLimit ++ "."
  | .runUnlike size bits =>
    "operands could not be broadcast together with shapes (" ++ toString size ++ ",) ("
      ++ toString bits ++ ",) "
  | .runTooShort bits =>
    "non-broadcastable output operand with shape (1,) doesn't match the broadcast shape ("
      ++ toString bits ++ ",)"
  | .notBytes => "bytes must be in range(0, 256)"
  | .notHex place =>
    "non-hexadecimal number found in fromhex() arg at position " ++ toString place
  | .noFloat => "int too large to convert to float"
  | .unfit value purpose => purpose.refusal value.kind
  | .operands operator left right => Value.refusal operator left right
  | .incomparable relation left right =>
    "'" ++ relation ++ "' not supported between instances of '" ++ left.kind ++ "' and '"
      ++ right.kind ++ "'"
  | .template problem => problem.text
  | .notLiteral text => "invalid literal for int() with base 10: " ++ Text.quotedUpTo 200 text
  | .tooManyDigits digits =>
    "Exceeds the limit (" ++ toString Text.digitLimit
      ++ " digits) for integer string conversion: value has " ++ toString digits
      ++ " digits; use sys.set_int_max_str_digits() to increase the limit"
  | .unwritable =>
    "Exceeds the limit (" ++ toString Text.digitLimit
      ++ " digits) for integer string conversion; use sys.set_int_max_str_digits() to increase "
      ++ "the limit"
  | .notReal text => "could not convert string to float: " ++ Text.quoted text
  | .notCharacter code =>
    if fitsHalfWord code then "chr() arg not in range(0x110000)"
    else "Python int too large to convert to C int"
  | .notByte => "byte must be in range(0, 256)"
  | .notFinite => "cannot convert float infinity to integer"
  | .notNumber => "cannot convert float NaN to integer"
  | .noRemainder ofDoubles => if ofDoubles then "float modulo" else "integer modulo by zero"
  | .noFormat code value =>
    if value.hasFormat then
      "Unknown format code '" ++ code.toString ++ "' for object of type '" ++ value.kind ++ "'"
    else "unsupported format string passed to " ++ value.kind ++ ".__format__"
  | .negativeCount => "negative count"
  | .endless | .endlessIndex => "cannot fit 'int' into an index-sized integer"
  | .endlessText => "repeated string is too long"
  | .endlessBytes => "repeated bytes are too long"
  | .noMemory => ""
  | .noStride => "range() arg 3 must not be zero"
  | .negativePicture => "negative dimensions are not allowed"
  | .endlessPicture => "Maximum allowed dimension exceeded"
  | .hugePicture =>
    "array is too big; `arr.size * arr.dtype.itemsize` is larger than the maximum possible size."
  | .tooManyAxes axes =>
    "maximum supported dimension for an ndarray is currently " ++ toString levelLimit
      ++ ", found " ++ toString axes
  | .noPictureRoom axes =>
    "Unable to allocate " ++ Text.byteCount (cellCount axes) ++ " for an array with shape "
      ++ shapeText axes ++ " and data type uint8"
  | .brokenPicture pixels =>
    "expected a sequence of integers or a single integer, got '" ++ pixels.literal ++ "'"
  | .noShape height width =>
    if height < 0 ∧ width < 0 then "can only specify one unknown dimension"
    else if height < 0 then "cannot reshape array of size 0 into shape (0)"
    else "cannot reshape array of size 0 into shape (0,newaxis)"
  | .noPlayer => "list index out of range"

end ChipEight
