import AppMem.Device.Function
import AppMem.Library.Text

/-! # Printing capabilities

`am_sprintf_capability` and `am_sprintf_cap_details` print piece after piece to a buffer. What is
left of its size is a running difference of unsigned numbers, and the text is taken for cut off
when `snprintf` returns -1.
-/
namespace AppMem.Entry
open Library.Text Library.Bytes Library.Checked Abi Memory Device

section Pieces

def amCapTypeStr : List (List UInt8) :=
  [ofText "Appmem Base Capabilites", ofText "Flat Memory", ofText "Static Array",
    ofText "Associative Array", ofText "Linked List"]

/-- `AmCapTypeStr[amType]`. -/
def readTypeStr (amType : UInt32) : Exec (List UInt8) :=
  (amCapTypeStr[amType.toNat]?).elim (.error .bounds) .ok

/-- `AM_CAP_DETAILS`, with the bytes of its texts. -/
structure CapDetailsBytes where
  amType : UInt32
  amTypeSz : List UInt8
  subType : UInt32
  subTypeSz : List UInt8
  typeSpecificCount : UInt32
  typeSpecificSz : List (List UInt8)

def fieldText (field : List UInt8) : List UInt8 := field.takeWhile (· != 0)

/-- `%s` of an array of characters; without a zero in it, what is read does not end there. -/
def readField (field : Option (List UInt8)) : Exec (List UInt8) :=
  match field with
  | some l => if 0 ∈ l then .ok (fieldText l) else .error .bounds
  | none => .error .bounds

/-- A `UINT32` that is printed with `%d`. -/
def intArg (v : UInt32) : ℤ := v.toInt32.toInt

def describedLine (label : String) (v : UInt32) (description : List UInt8) : List UInt8 :=
  ofText label ++ hexText 8 v.toNat ++ ofText " : " ++ description ++ ofText "\n"

/-- The compiler passes eight bytes for `%d`, which reads the lower four. -/
def maxSizeLine (maxSize : UInt64) : List UInt8 :=
  ofText "MAX_SIZE    = 0x" ++ hexText 16 maxSize.toNat ++ ofText " : " ++
    intText (intArg (maxSize / (1024 * 1024)).toUInt32) ++ ofText " MB\n"

def countLine (label : String) (v : UInt32) (ending : String) : List UInt8 :=
  ofText label ++ hexText 8 v.toNat ++ ofText ending

def typeSpecificLine (i : ℕ) (text : List UInt8) : List UInt8 :=
  ofText "TS#" ++ intText (intArg (UInt32.ofNat i)) ++ ofText " = " ++ text ++ ofText "\n"

/-- What `am_sprintf_capability` prints, call by call. -/
def capabilityPieces (c : AmMemCap) : List (Exec (List UInt8)) :=
  [(readTypeStr c.amType).map (describedLine "MEMORY TYPE = 0x" c.amType),
    .ok (maxSizeLine c.maxSize),
    .ok (countLine "SUB_TYPES = = 0x" c.subType "\n")]

/-- What `am_sprintf_cap_details` prints, call by call. -/
def detailPieces (d : CapDetailsBytes) : List (Exec (List UInt8)) :=
  [(readField d.amTypeSz).map (describedLine "amType  = 0x" d.amType),
    (readField d.subTypeSz).map (describedLine "subType = 0x" d.subType),
    .ok (countLine "typeSpecificCount = 0x" d.typeSpecificCount " \n")] ++
  (List.range d.typeSpecificCount.toNat).map fun i =>
    (readField d.typeSpecificSz[i]?).map (typeSpecificLine i)

end Pieces

section Calls

/-- `snprintf` as C99 has it: what fits of the text and a zero behind it goes to the buffer, and the
length of the whole text is returned. -/
def snprintf (buf : List UInt8) (off n : ℕ) (text : List UInt8) : Exec (ℤ × List UInt8) :=
  if n = 0 then .ok (text.length, buf)
  else do
    let out := text.take (n - 1) ++ [0]
    require (off + out.length ≤ buf.length) .bounds
    return (text.length, splice buf off out)

/-- The loops so far: `off` is how far `buf` has moved, `bufSize` is `buf_size`, and `calls` keeps
both for each call of `snprintf`. -/
structure Printing where
  buf : List UInt8
  off : ℕ
  bufSize : UInt32
  calls : List (ℕ × UInt32)

def Printing.print (p : Printing) (piece : Exec (List UInt8)) : Exec (Bool × Printing) := do
  let text ← piece
  let (sb, buf) ← snprintf p.buf p.off p.bufSize.toNat text
  let calls := p.calls ++ [(p.off, p.bufSize)]
  if sb = -1 then return (false, { p with buf := buf, calls := calls })
  else return (true, ⟨buf, p.off + sb.toNat, p.bufSize - UInt32.ofInt sb, calls⟩)

/-- The calls up to one that returns -1; was there none? -/
def Printing.printAll : List (Exec (List UInt8)) → Printing → Exec (Bool × Printing)
  | [], p => .ok (true, p)
  | piece :: pieces, p => do
    let (more, p) ← p.print piece
    if more then printAll pieces p else return (false, p)

/-- The buffer, the return value, and the calls of `snprintf` on the way. -/
structure Printed where
  buf : Option (List UInt8)
  returned : UInt32
  calls : List (ℕ × UInt32)

/-- `start_buf[bytes_written - 1] = '\0'`. -/
def endBuffer (buf : List UInt8) (bytesWritten : UInt32) : Exec (List UInt8) := do
  require ((bytesWritten - 1).toNat < buf.length) .bounds
  return buf.set (bytesWritten - 1).toNat 0

def printPieces (pieces : List (Exec (List UInt8))) (buf : List UInt8) (bufSize : UInt32) :
    Exec Printed := do
  let (complete, p) ← Printing.printAll pieces ⟨buf, 0, bufSize, []⟩
  if complete then return ⟨p.buf, bufSize - p.bufSize, p.calls⟩
  else do
    let buf ← endBuffer p.buf bufSize
    return ⟨buf, bufSize, p.calls⟩

/-- Nothing is printed: the buffer gets its last zero. -/
def printNothing (buf : List UInt8) (bufSize : UInt32) : Exec Printed := do
  let buf ← endBuffer buf bufSize
  return ⟨buf, bufSize, []⟩

def amSprintfCapability (pAmCap : Option AmMemCap) (buf : Option (List UInt8))
    (bufSize : UInt32) : Exec Printed :=
  match buf, pAmCap with
  | none, _ => .error .nullPointer
  | some b, none => printNothing b bufSize
  | some b, some c =>
    if bufSize ≠ 0 then printPieces (capabilityPieces c) b bufSize else printNothing b bufSize

/-- Without details, a size or a buffer nothing is written. -/
def amSprintfCapDetails (pCapDetails : Option CapDetailsBytes) (buf : Option (List UInt8))
    (bufSize : UInt32) : Exec Printed :=
  match buf, pCapDetails with
  | some b, some d =>
    if bufSize ≠ 0 then printPieces (detailPieces d) b bufSize else .ok ⟨b, bufSize, []⟩
  | buf, _ => .ok ⟨buf, bufSize, []⟩

end Calls

end AppMem.Entry
