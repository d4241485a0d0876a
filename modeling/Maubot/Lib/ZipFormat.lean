import Maubot.Lib.Bytes

namespace Maubot.ZipFormat

/-!
# Zip archives, as they are written

* `LocalHeader`, `CentralHeader`, `EndRecord` — the three kinds of records, with their bytes;
* `Member`, `Archive` — an archive: its members, each behind its local header, the central
  directory and the end record, with whatever stands in front of all of them;
* `exists_central` — bytes that start like a central header are one, if none are missing.
-/

open Bytes

def localSignature : Bytes := [0x50, 0x4b, 0x03, 0x04]

def centralSignature : Bytes := [0x50, 0x4b, 0x01, 0x02]

def endSignature : Bytes := [0x50, 0x4b, 0x05, 0x06]

/-- A signature has four bytes, of a local header, -/
@[simp] theorem length_localSignature : localSignature.length = 4 := rfl

/-- of a central one -/
@[simp] theorem length_centralSignature : centralSignature.length = 4 := rfl

/-- and of the end record. -/
@[simp] theorem length_endSignature : endSignature.length = 4 := rfl

/-! ### Local headers -/

structure LocalHeader where
  version  : UInt16
  flags    : UInt16
  compress : UInt16
  time     : UInt16
  date     : UInt16
  crc      : UInt32
  dataSize : UInt32
  fileSize : UInt32
  name     : Bytes
  extra    : Bytes
  name_lt  : name.length < 65536
  extra_lt : extra.length < 65536

namespace LocalHeader

/-- The part of constant length -/
def fixed (h : LocalHeader) : Bytes :=
  [localSignature, u16 h.version, u16 h.flags, u16 h.compress, u16 h.time, u16 h.date, u32 h.crc,
    u32 h.dataSize, u32 h.fileSize, toLE 2 h.name.length, toLE 2 h.extra.length].flatten

def encode (h : LocalHeader) : Bytes := h.fixed ++ (h.name ++ h.extra)

/-- The fixed part of a local header. -/
@[simp] theorem length_fixed (h : LocalHeader) : h.fixed.length = 30 := by
  simp [fixed]

/-- A local header with its name and extra data. -/
theorem length_encode (h : LocalHeader) :
    h.encode.length = 30 + h.name.length + h.extra.length := by
  rw [encode, List.length_append, List.length_append, length_fixed, Nat.add_assoc]

end LocalHeader

/-! ### Central headers -/

structure CentralHeader where
  versionMade   : UInt16
  versionNeeded : UInt16
  flags         : UInt16
  compress      : UInt16
  time          : UInt16
  date          : UInt16
  crc           : UInt32
  dataSize      : UInt32
  fileSize      : UInt32
  disk          : UInt16
  internal      : UInt16
  external      : UInt32
  /-- of the local header, behind what stands in front of the archive -/
  offset        : UInt32
  name          : Bytes
  extra         : Bytes
  comment       : Bytes
  name_lt       : name.length < 65536
  extra_lt      : extra.length < 65536
  comment_lt    : comment.length < 65536

namespace CentralHeader

def fixed (h : CentralHeader) : Bytes :=
  [centralSignature, u16 h.versionMade, u16 h.versionNeeded, u16 h.flags, u16 h.compress,
    u16 h.time, u16 h.date, u32 h.crc, u32 h.dataSize, u32 h.fileSize, toLE 2 h.name.length,
    toLE 2 h.extra.length, toLE 2 h.comment.length, u16 h.disk, u16 h.internal, u32 h.external,
    u32 h.offset].flatten

def encode (h : CentralHeader) : Bytes := h.fixed ++ (h.name ++ (h.extra ++ h.comment))

/-- The length of what follows the part of constant length -/
def tail (h : CentralHeader) : Nat := h.name.length + h.extra.length + h.comment.length

/-- The fixed part of a central header. -/
@[simp] theorem length_fixed (h : CentralHeader) : h.fixed.length = 46 := by
  simp [fixed]

/-- A central header with what follows it. -/
theorem length_encode (h : CentralHeader) : h.encode.length = 46 + h.tail := by
  rw [encode, List.length_append, List.length_append, List.length_append, length_fixed, tail]
  omega

end CentralHeader

/-- **Reading a central header**: the signature, the rest of the constant part, and the three
    texts whose lengths it gives. -/
theorem exists_central {l : Bytes} (hsig : chunk l 0 4 = centralSignature) (hlen : 46 ≤ l.length)
    (htail : 46 + (ofLE (chunk l 28 2) + ofLE (chunk l 30 2) + ofLE (chunk l 32 2)) ≤ l.length) :
    ∃ (h : CentralHeader) (rest : Bytes), l = h.encode ++ rest := by
  obtain ⟨l, rfl⟩ : ∃ rest, l = centralSignature ++ rest :=
    ⟨l.drop 4, by rw [← hsig]; exact (chunk_append_drop l 0 4).symm⟩
  have hl : 42 ≤ l.length := by
    rw [List.length_append] at hlen
    exact Nat.le_of_add_le_add_left hlen
  clear hsig hlen
  -- the numbers of the constant part, one behind the other
  obtain ⟨versionMade, l, rfl⟩ := exists_u16 (Nat.le_trans (by decide) hl)
  simp only [List.length_append, length_u16] at hl
  obtain ⟨versionNeeded, l, rfl⟩ := exists_u16 (l := l) (by omega)
  simp only [List.length_append, length_u16] at hl
  obtain ⟨flags, l, rfl⟩ := exists_u16 (l := l) (by omega)
  simp only [List.length_append, length_u16] at hl
  obtain ⟨compress, l, rfl⟩ := exists_u16 (l := l) (by omega)
  simp only [List.length_append, length_u16] at hl
  obtain ⟨time, l, rfl⟩ := exists_u16 (l := l) (by omega)
  simp only [List.length_append, length_u16] at hl
  obtain ⟨date, l, rfl⟩ := exists_u16 (l := l) (by omega)
  simp only [List.length_append, length_u16] at hl
  obtain ⟨crc, l, rfl⟩ := exists_u32 (l := l) (by omega)
  simp only [List.length_append, length_u32] at hl
  obtain ⟨dataSize, l, rfl⟩ := exists_u32 (l := l) (by omega)
  simp only [List.length_append, length_u32] at hl
  obtain ⟨fileSize, l, rfl⟩ := exists_u32 (l := l) (by omega)
  simp only [List.length_append, length_u32] at hl
  obtain ⟨nameSize, l, rfl⟩ := exists_u16 (l := l) (by omega)
  simp only [List.length_append, length_u16] at hl
  obtain ⟨extraSize, l, rfl⟩ := exists_u16 (l := l) (by omega)
  simp only [List.length_append, length_u16] at hl
  obtain ⟨commentSize, l, rfl⟩ := exists_u16 (l := l) (by omega)
  simp only [List.length_append, length_u16] at hl
  obtain ⟨disk, l, rfl⟩ := exists_u16 (l := l) (by omega)
  simp only [List.length_append, length_u16] at hl
  obtain ⟨internal, l, rfl⟩ := exists_u16 (l := l) (by omega)
  simp only [List.length_append, length_u16] at hl
  obtain ⟨external, l, rfl⟩ := exists_u32 (l := l) (by omega)
  simp only [List.length_append, length_u32] at hl
  obtain ⟨offset, l, rfl⟩ := exists_u32 (l := l) (by omega)
  clear hl
  -- the texts behind it
  have hsizes : nameSize.toNat + extraSize.toNat + commentSize.toNat ≤ l.length := by
    have hn : ∀ x : UInt16, ofLE (u16 x) = x.toNat := ofLE_u16
    have hfixed := htail
    simp only [List.length_append, length_u16, length_u32] at hfixed
    have h₁ := hn nameSize
    have h₂ := hn extraSize
    have h₃ := hn commentSize
    change 46 + (ofLE (u16 nameSize) + ofLE (u16 extraSize) + ofLE (u16 commentSize)) ≤ _ at hfixed
    rw [h₁, h₂, h₃, length_centralSignature] at hfixed
    omega
  have hname : (l.take nameSize.toNat).length = nameSize.toNat :=
    List.length_take_of_le (by omega)
  have hextra : (chunk l nameSize.toNat extraSize.toNat).length = extraSize.toNat :=
    length_chunk (by omega)
  have hcomment : (chunk l (nameSize.toNat + extraSize.toNat) commentSize.toNat).length =
      commentSize.toNat := length_chunk (by omega)
  have hu16 : ∀ x : UInt16, x.toNat < 65536 := UInt16.toNat_lt
  refine ⟨{
    versionMade, versionNeeded, flags, compress, time, date, crc, dataSize, fileSize, disk
    internal, external, offset
    name := l.take nameSize.toNat
    extra := chunk l nameSize.toNat extraSize.toNat
    comment := chunk l (nameSize.toNat + extraSize.toNat) commentSize.toNat
    name_lt := by rw [hname]; exact hu16 _
    extra_lt := by rw [hextra]; exact hu16 _
    comment_lt := by rw [hcomment]; exact hu16 _ },
    l.drop (nameSize.toNat + extraSize.toNat + commentSize.toNat), ?_⟩
  have htexts : l.take nameSize.toNat ++ (chunk l nameSize.toNat extraSize.toNat ++
      (chunk l (nameSize.toNat + extraSize.toNat) commentSize.toNat ++
        l.drop (nameSize.toNat + extraSize.toNat + commentSize.toNat))) = l := by
    rw [chunk_append_drop, chunk_append_drop, List.take_append_drop]
  unfold CentralHeader.encode CentralHeader.fixed
  dsimp only
  rw [hname, hextra, hcomment]
  simp only [List.flatten_cons, List.flatten_nil, List.append_nil, List.append_assoc]
  rw [htexts]
  rfl

/-! ### Archives -/

structure EndRecord where
  disk        : UInt16
  centralDisk : UInt16
  diskEntries : UInt16
  entries     : UInt16
  size        : UInt32
  offset      : UInt32
  comment     : Bytes
  comment_lt  : comment.length < 65536

namespace EndRecord

def fixed (r : EndRecord) : Bytes :=
  [endSignature, u16 r.disk, u16 r.centralDisk, u16 r.diskEntries, u16 r.entries, u32 r.size,
    u32 r.offset, toLE 2 r.comment.length].flatten

def encode (r : EndRecord) : Bytes := r.fixed ++ r.comment

/-- The fixed part of the end record. -/
@[simp] theorem length_fixed (r : EndRecord) : r.fixed.length = 22 := by
  simp [fixed]

end EndRecord

structure Member where
  header  : LocalHeader
  data    : Bytes
  /-- a data descriptor, or nothing -/
  behind  : Bytes := []
  central : CentralHeader
  size_eq : central.dataSize.toNat = data.length

def Member.encode (m : Member) : Bytes := m.header.encode ++ (m.data ++ m.behind)

def body (members : List Member) : Bytes := members.flatMap Member.encode

/-- The header of a member whose local header is at the offset -/
def Member.centralAt (m : Member) (offset : Nat) : CentralHeader :=
  { m.central with offset := UInt32.ofNat offset }

/-- The headers of the central directory -/
def centrals : Nat → List Member → List CentralHeader
  | _, []           => []
  | offset, m :: ms => m.centralAt offset :: centrals (offset + m.encode.length) ms

def directory (headers : List CentralHeader) : Bytes := headers.flatMap CentralHeader.encode

structure Archive where
  /-- what is in front of the archive, such as a program that extracts it -/
  front        : Bytes := []
  members      : List Member
  disk         : UInt16 := 0
  centralDisk  : UInt16 := 0
  diskEntries  : UInt16
  entries      : UInt16
  comment      : Bytes := []
  body_lt      : (body members).length < 4294967296
  directory_lt : (directory (centrals 0 members)).length < 4294967296
  comment_lt   : comment.length < 65536

namespace Archive

variable (a : Archive)

def headers : List CentralHeader := centrals 0 a.members

def endRecord : EndRecord where
  disk        := a.disk
  centralDisk := a.centralDisk
  diskEntries := a.diskEntries
  entries     := a.entries
  size        := UInt32.ofNat (directory a.headers).length
  offset      := UInt32.ofNat (body a.members).length
  comment     := a.comment
  comment_lt  := a.comment_lt

def encode : Bytes :=
  a.front ++ (body a.members ++ (directory a.headers ++ a.endRecord.encode))

/-- The signature of the end record stands nowhere in it but at its start.  Without a comment it
    does not matter. -/
def Quiet : Prop := a.comment = [] ∨ ∀ j, 0 < j → ¬ At endSignature a.endRecord.encode j

end Archive

end Maubot.ZipFormat
