import GlutSketch.Preview.Picture

/-!
# GlutSketch.Preview.Png

Pictures as PNG files with three bytes per pixel.  The data are stored, not
compressed.
-/

namespace GlutSketch.Png

/-! ## Checksums -/

/-- A step of the cyclic redundancy check for one bit. -/
def crcShift (c : UInt32) : UInt32 :=
  if c &&& 1 = 1 then (c >>> 1) ^^^ 0xEDB88320 else c >>> 1

/-- A step of the cyclic redundancy check for one byte. -/
def crcByte (c : UInt32) (b : UInt8) : UInt32 :=
  crcShift (crcShift (crcShift (crcShift (crcShift (crcShift (crcShift (crcShift
    (c ^^^ b.toUInt32))))))))

/-- The cyclic redundancy check of 32 bits. -/
def crc (data : ByteArray) : UInt32 := data.foldl crcByte 0xFFFFFFFF ^^^ 0xFFFFFFFF

/-- The two sums of the checksum at the end of the data. -/
def adler (data : ByteArray) : UInt32 :=
  let (a, b) := data.foldl (fun ((a, b) : UInt32 × UInt32) byte =>
    let a := (a + byte.toUInt32) % 65521
    (a, (b + a) % 65521)) (1, 0)
  b * 65536 + a

/-! ## Layout -/

/-- The low `count` bytes of a number, the highest first. -/
def bigEndian (count n : Nat) : ByteArray :=
  ⟨((List.range count).map fun i => UInt8.ofNat (n / Nat.pow 256 (count - 1 - i))).toArray⟩

/-- The low two bytes of a number, the lowest first. -/
def littleEndian16 (n : Nat) : ByteArray := ⟨#[UInt8.ofNat n, UInt8.ofNat (n / 256)]⟩

/-- A chunk with its length and its checksum. -/
def chunk (kind : String) (data : ByteArray) : ByteArray :=
  let body := kind.toUTF8 ++ data
  bigEndian 4 data.size ++ body ++ bigEndian 4 (crc body).toNat

/-- The most bytes a stored block can have. -/
def maxBlock : Nat := 65535

/-- Data from `start` on as stored blocks, at least one, the last of them
marked. -/
def storedBlocks (data : ByteArray) (start : Nat) (out : ByteArray) : ByteArray :=
  let stop := min (start + maxBlock) data.size
  let size := stop - start
  let last := data.size ≤ start + maxBlock
  let block := (ByteArray.mk #[if last then 1 else 0]) ++ littleEndian16 size ++
    littleEndian16 (maxBlock - size) ++ data.extract start stop
  if last then out ++ block else storedBlocks data (start + maxBlock) (out ++ block)
termination_by data.size - start
decreasing_by simp only [last] at *; simp only [maxBlock] at *; omega

/-- The rows of a raster, each after a byte that says that it is not
filtered. -/
def rows (width height : Nat) (raster : ByteArray) : ByteArray :=
  (List.range height).foldl (fun out y =>
    out.push 0 ++ raster.extract (3 * width * y) (3 * width * (y + 1))) ByteArray.empty

/-- A picture as a file. -/
def encode (pic : Picture) : ByteArray :=
  let signature : ByteArray := ⟨#[0x89, 0x50, 0x4E, 0x47, 0x0D, 0x0A, 0x1A, 0x0A]⟩
  let format : ByteArray := ⟨#[8, 2, 0, 0, 0]⟩
  let data := rows pic.width pic.height pic.raster
  let stored := storedBlocks data 0 ⟨#[0x78, 0x01]⟩ ++ bigEndian 4 (adler data).toNat
  signature ++ chunk "IHDR" (bigEndian 4 pic.width ++ bigEndian 4 pic.height ++ format) ++
    chunk "IDAT" stored ++ chunk "IEND" ByteArray.empty

end GlutSketch.Png
