import Maubot.Lib.Dict
import Maubot.Lib.ZipFormat
import Maubot.Loader.Zipimport

namespace Maubot.ZipDirectory

/-!
# The directory of an archive — `lib/zipimport.py`

The importer reads the central directory from the end of the archive, and the data of a file from
behind its local header.

* `readDirectory`, `getData` — `_read_directory` and `_get_data`, byte by byte;
* `readDirectory_ok_iff` — which bytes are an archive to the importer, and what its table is;
* `read_archive` — an archive as it is written is read back;
* `read_surrounded` — bytes in front of an archive, and behind it.
-/

open Bytes ZipFormat Zipimport

/-- A `toc_entry` -/
structure TocEntry where
  /-- `__file__` -/
  path       : Path
  compress   : Nat
  dataSize   : Nat
  fileSize   : Nat
  fileOffset : Nat
  time       : Nat
  date       : Nat
  crc        : Nat
  deriving DecidableEq, Repr

def endCentralDirSize : Nat := 22

def maxCommentLen : Nat := 65535

/-- `_unpack_uint16` and `_unpack_uint32`, of two and four bytes -/
def unpackUint (data : Bytes) : Nat := ofLE data

-- `repr` of a path, which the texts of exceptions show
variable (repr : Path → String)

def zipImportError (text : String) (archive : Path) : PyExc :=
  ⟨.zipImportError, text ++ ": " ++ repr archive⟩

def eofError : PyExc := ⟨.other "EOFError", "EOF read where not expected"⟩

/-! ### Names -/

/-- The characters of `cp437_table` behind the first 128, which are ASCII -/
def cp437High : List Char :=
  "ÇüéâäàåçêëèïîìÄÅÉæÆôöòûùÿÖÜ¢£¥₧ƒáíóúñÑªº¿⌐¬½¼¡«»░▒▓│┤╡╢╖╕╣║╗╝╜╛┐└┴┬├─┼╞╟╚╔╩╦╠═╬╧╨╤╥╙╘╒╓╫╪┘┌█▄▌▐▀".toList ++
    "αßΓπΣσµτΦΘΩδ∞φε∩≡±≥≤⌠⌡÷≈°∙·√ⁿ²■\u00a0".toList

def cp437 (b : UInt8) : Char :=
  if b < 128 then Char.ofNat b.toNat else cp437High.getD (b.toNat - 128) ' '

/-- The name of an entry: UTF-8 if the flag says so, else ASCII or the old encoding -/
def decodeName (flags : Nat) (name : Bytes) : Except PyExc Path :=
  if flags &&& 0x800 ≠ 0 then
    match (ByteArray.mk name.toArray).utf8Decode? with
    | some chars => .ok chars.toList
    | none       => .error ⟨.valueError, "UnicodeDecodeError"⟩
  else if name.all (· < 128) then .ok (name.map fun b => Char.ofNat b.toNat)
  else .ok (name.map cp437)

/-- `_path_join` of importlib -/
def pathJoin (parts : List Path) : Path :=
  UrlPath.join '/' ((parts.filter fun part => part ≠ []).map fun part => part.rdropWhile (· = '/'))

/-! ### Reading the directory -/

/-- The search for the end record in front of a comment, in `data` from a place on -/
def findCommented (archive : Path) (b : Bytes) (maxCommentStart : Nat) :
    Except PyExc (Nat × Bytes) :=
  let data := b.drop maxCommentStart
  match rfind endSignature data with
  | none     => .error (zipImportError repr "not a Zip file" archive)
  | some pos =>
    let buffer := chunk data pos endCentralDirSize
    if buffer.length ≠ endCentralDirSize then
      .error (zipImportError repr "corrupt Zip file" archive)
    else .ok (b.length - data.length + pos, buffer)

/-- Where the end record is, and its part of constant length -/
def findEnd (archive : Path) (b : Bytes) : Except PyExc (Nat × Bytes) :=
  if b.length < endCentralDirSize then .error (zipImportError repr "can't read Zip file" archive)
  else
    let headerPosition := b.length - endCentralDirSize
    let buffer := chunk b headerPosition endCentralDirSize
    if buffer.length ≠ endCentralDirSize then
      .error (zipImportError repr "can't read Zip file" archive)
    else if chunk buffer 0 4 = endSignature then .ok (headerPosition, buffer)
    else
      -- `max(file_size - MAX_COMMENT_LEN - END_CENTRAL_DIR_SIZE, 0)`
      findCommented repr archive b (b.length - maxCommentLen - endCentralDirSize)

/-- One turn of the loop over the central directory, which `l` is the rest of, with the rest of
    the file: the entry and the length of its header, or `none` at the end -/
def readEntry (archive : Path) (headerOffset arcOffset : Nat) (l : Bytes) :
    Except PyExc (Option ((Path × TocEntry) × Nat)) :=
  let buffer := l.take 46
  if buffer.length < 4 then .error eofError
  else if chunk buffer 0 4 ≠ centralSignature then .ok none
  else if buffer.length ≠ 46 then .error eofError
  else
    let flags := unpackUint (chunk buffer 8 2)
    let compress := unpackUint (chunk buffer 10 2)
    let time := unpackUint (chunk buffer 12 2)
    let date := unpackUint (chunk buffer 14 2)
    let crc := unpackUint (chunk buffer 16 4)
    let dataSize := unpackUint (chunk buffer 20 4)
    let fileSize := unpackUint (chunk buffer 24 4)
    let nameSize := unpackUint (chunk buffer 28 2)
    let extraSize := unpackUint (chunk buffer 30 2)
    let commentSize := unpackUint (chunk buffer 32 2)
    let fileOffset := unpackUint (chunk buffer 42 4)
    let headerSize := nameSize + extraSize + commentSize
    if fileOffset > headerOffset then
      .error (zipImportError repr "bad local header offset" archive)
    else
      let name := chunk l 46 nameSize
      if name.length ≠ nameSize then .error (zipImportError repr "can't read Zip file" archive)
      else if (chunk l (46 + nameSize) (headerSize - nameSize)).length ≠ headerSize - nameSize then
        .error (zipImportError repr "can't read Zip file" archive)
      else
        match decodeName flags name with
        | .error e => .error e
        | .ok name =>
          .ok (some ((name, {
            path       := pathJoin [archive, name]
            fileOffset := fileOffset + arcOffset
            compress, dataSize, fileSize, time, date, crc }), 46 + headerSize))

/-- A turn that reads an entry takes its header from the file. -/
theorem readEntry_size {archive : Path} {headerOffset arcOffset size : Nat} {l : Bytes}
    {x : Path × TocEntry}
    (h : readEntry repr archive headerOffset arcOffset l = .ok (some (x, size))) :
    0 < size ∧ size ≤ l.length := by
  unfold readEntry at h
  dsimp only at h
  split at h
  · cases h
  split at h
  · cases h
  split at h
  · cases h
  next hbuffer =>
  split at h
  · cases h
  split at h
  · cases h
  next hname =>
  split at h
  · cases h
  next hrest =>
  split at h
  · cases h
  cases h
  -- the header is whole, and so is what it announces
  have hlen : 46 ≤ l.length := by
    rw [not_not, List.length_take] at hbuffer
    omega
  refine ⟨by omega, ?_⟩
  rw [not_not] at hname hrest
  rw [chunk, List.length_take, List.length_drop] at hname hrest
  omega

/-- The loop over the central directory -/
def readEntries (archive : Path) (headerOffset arcOffset : Nat) (l : Bytes)
    (files : Files TocEntry) : Except PyExc (Files TocEntry) :=
  match _h : readEntry repr archive headerOffset arcOffset l with
  | .error e                         => .error e
  | .ok none                         => .ok files
  | .ok (some ((name, entry), size)) =>
    readEntries archive headerOffset arcOffset (l.drop size) (Items.set files name entry)
termination_by l.length
decreasing_by
  have hsize := readEntry_size repr _h
  rw [List.length_drop]
  omega

/-- `_read_directory(archive)`, from the bytes of the archive -/
def readDirectory (archive : Path) (b : Bytes) : Except PyExc (Files TocEntry) :=
  match findEnd repr archive b with
  | .error e                      => .error e
  | .ok (headerPosition, buffer) =>
    let headerSize := unpackUint (chunk buffer 12 4)
    let headerOffset := unpackUint (chunk buffer 16 4)
    if headerPosition < headerSize then
      .error (zipImportError repr "bad central directory size" archive)
    else if headerPosition < headerOffset then
      .error (zipImportError repr "bad central directory offset" archive)
    else if headerPosition - headerSize < headerOffset then
      .error (zipImportError repr "bad central directory size or offset" archive)
    else
      let headerPosition := headerPosition - headerSize
      readEntries repr archive headerOffset (headerPosition - headerOffset)
        (b.drop headerPosition) []

/-! ### Reading a file -/

/-- `_get_data(archive, toc_entry)`; `decompress` is `zlib.decompress(data, -15)`, or what
    `_get_decompress_func` raises. -/
def getData (decompress : Bytes → Except PyExc Bytes) (archive : Path) (b : Bytes)
    (tocEntry : TocEntry) : Except PyExc Bytes :=
  let buffer := chunk b tocEntry.fileOffset 30
  if buffer.length ≠ 30 then .error eofError
  else if chunk buffer 0 4 ≠ localSignature then
    .error (zipImportError repr "bad local file header" archive)
  else
    let nameSize := unpackUint (chunk buffer 26 2)
    let extraSize := unpackUint (chunk buffer 28 2)
    let fileOffset := tocEntry.fileOffset + (30 + nameSize + extraSize)
    let rawData := chunk b fileOffset tocEntry.dataSize
    if rawData.length ≠ tocEntry.dataSize then .error ⟨.osError, "zipimport: can't read data"⟩
    else if tocEntry.compress = 0 then .ok rawData
    else decompress rawData

/-! ### The loop and the headers -/

/-- The name of a header, if it can be read -/
def nameOf (h : CentralHeader) : Option Path := (decodeName h.flags.toNat h.name).toOption

/-- The entry of a header, under its name -/
def entryOf (archive : Path) (arcOffset : Nat) (h : CentralHeader) (name : Path) : TocEntry where
  path       := pathJoin [archive, name]
  compress   := h.compress.toNat
  dataSize   := h.dataSize.toNat
  fileSize   := h.fileSize.toNat
  fileOffset := h.offset.toNat + arcOffset
  time       := h.time.toNat
  date       := h.date.toNat
  crc        := h.crc.toNat

section Loop

variable {archive : Path} {headerOffset arcOffset : Nat} {l rest : Bytes}

/-- **One turn**, before a whole header -/
theorem readEntry_encode (h : CentralHeader) (rest : Bytes) :
    readEntry repr archive headerOffset arcOffset (h.encode ++ rest) =
      if h.offset.toNat > headerOffset then
        .error (zipImportError repr "bad local header offset" archive)
      else
        match decodeName h.flags.toNat h.name with
        | .error e => .error e
        | .ok name => .ok (some ((name, entryOf archive arcOffset h name), h.encode.length)) := by
  have hlen : h.encode.length = 46 + h.tail := h.length_encode
  -- the fixed part of the header is what the reader buffers
  have hbuffer : (h.encode ++ rest).take 46 = h.fixed := by
    rw [CentralHeader.encode, List.append_assoc, List.take_append_of_le_length (by simp),
      List.take_of_length_le (by simp)]
  have hname : chunk (h.encode ++ rest) 46 h.name.length = h.name := by
    rw [CentralHeader.encode, List.append_assoc, List.append_assoc]
    exact h.length_fixed ▸ chunk_middle h.fixed h.name _
  have hn : ofLE (chunk h.fixed 28 2) = h.name.length := ofLE_toLE (w := 2) h.name_lt
  have he : ofLE (chunk h.fixed 30 2) = h.extra.length := ofLE_toLE (w := 2) h.extra_lt
  have hc : ofLE (chunk h.fixed 32 2) = h.comment.length := ofLE_toLE (w := 2) h.comment_lt
  -- what follows the name is skipped by its length
  have hrest : (chunk (h.encode ++ rest) (46 + h.name.length)
      (h.extra.length + h.comment.length)).length = h.extra.length + h.comment.length := by
    apply length_chunk
    rw [List.length_append, hlen, CentralHeader.tail]
    omega
  have hflags : ofLE (chunk h.fixed 8 2) = h.flags.toNat := ofLE_u16 h.flags
  have hcompress : ofLE (chunk h.fixed 10 2) = h.compress.toNat := ofLE_u16 h.compress
  have htime : ofLE (chunk h.fixed 12 2) = h.time.toNat := ofLE_u16 h.time
  have hdate : ofLE (chunk h.fixed 14 2) = h.date.toNat := ofLE_u16 h.date
  have hcrc : ofLE (chunk h.fixed 16 4) = h.crc.toNat := ofLE_u32 h.crc
  have hdata : ofLE (chunk h.fixed 20 4) = h.dataSize.toNat := ofLE_u32 h.dataSize
  have hfile : ofLE (chunk h.fixed 24 4) = h.fileSize.toNat := ofLE_u32 h.fileSize
  have hoffset : ofLE (chunk h.fixed 42 4) = h.offset.toNat := ofLE_u32 h.offset
  have hsig : chunk h.fixed 0 4 = centralSignature := rfl
  have hsum : h.name.length + h.extra.length + h.comment.length - h.name.length =
      h.extra.length + h.comment.length := by omega
  unfold readEntry unpackUint
  dsimp only
  rw [hbuffer, hflags, hcompress, htime, hdate, hcrc, hdata, hfile, hoffset, hn, he, hc, hsum,
    hname, hrest, if_neg (by simp), if_neg (not_not.mpr hsig), if_neg (by simp)]
  simp only [ne_eq, not_true_eq_false, if_false]
  rw [hlen]
  rfl

/-- The loop ends before other bytes than a header. -/
theorem readEntry_eq_none_iff : readEntry repr archive headerOffset arcOffset l = .ok none ↔
    4 ≤ l.length ∧ chunk l 0 4 ≠ centralSignature := by
  have hlen : (l.take 46).length < 4 ↔ l.length < 4 := by
    rw [List.length_take]
    omega
  have hsig : chunk (l.take 46) 0 4 = chunk l 0 4 := List.take_take
  unfold readEntry
  dsimp only
  rw [hsig]
  constructor
  · intro h
    split at h
    · cases h
    next hshort =>
    rw [hlen, not_lt] at hshort
    split at h
    next hne => exact ⟨hshort, hne⟩
    split at h
    · cases h
    split at h
    · cases h
    split at h
    · cases h
    split at h
    · cases h
    split at h <;> cases h
  · rintro ⟨hshort, hne⟩
    rw [if_neg (by rwa [hlen, not_lt]), if_pos hne]

/-- A turn that reads an entry stands before a header. -/
theorem exists_of_readEntry {x : (Path × TocEntry) × Nat}
    (h : readEntry repr archive headerOffset arcOffset l = .ok (some x)) :
    ∃ (header : CentralHeader) (rest : Bytes), l = header.encode ++ rest := by
  obtain ⟨⟨name, entry⟩, size⟩ := x
  unfold readEntry at h
  dsimp only at h
  split at h
  · cases h
  split at h
  · cases h
  next hsig =>
  split at h
  · cases h
  next hbuffer =>
  split at h
  · cases h
  split at h
  · cases h
  next hname =>
  split at h
  · cases h
  next hrest =>
  -- none of the checks has failed, so the header is whole
  have hlen : 46 ≤ l.length := by
    rw [not_not, List.length_take] at hbuffer
    omega
  -- its fields are those of the text behind it
  have hpart : ∀ i n, i + n ≤ 46 → chunk (l.take 46) i n = chunk l i n := by
    intro i n hi
    rw [chunk, chunk, List.drop_take, List.take_take, Nat.min_eq_left (by omega)]
  refine exists_central ?_ hlen ?_
  · rw [not_not, hpart 0 4 (by decide)] at hsig
    exact hsig
  · rw [not_not, hpart 28 2 (by decide)] at hname
    rw [not_not, hpart 28 2 (by decide), hpart 30 2 (by decide), hpart 32 2 (by decide)] at hrest
    rw [chunk, List.length_take, List.length_drop] at hname hrest
    unfold unpackUint at hname hrest
    omega

/-- What the loop reads: headers, each with a name and a place before the directory, up to bytes
    that are none. -/
structure Headers (headerOffset : Nat) (l : Bytes) (headers : List CentralHeader) : Prop where
  bytes     : ∃ tail, l = directory headers ++ tail ∧ 4 ≤ tail.length ∧
    chunk tail 0 4 ≠ centralSignature
  offset_le : ∀ h ∈ headers, h.offset.toNat ≤ headerOffset
  named     : ∀ h ∈ headers, (nameOf h).isSome

/-- The table of headers: the last one of a name counts, the first one gives the place. -/
def table (archive : Path) (arcOffset : Nat) (headers : List CentralHeader)
    (files : Files TocEntry) : Files TocEntry :=
  match headers with
  | []           => files
  | h :: headers =>
    table archive arcOffset headers
      (match nameOf h with
      | none      => files
      | some name => Items.set files name (entryOf archive arcOffset h name))

/-- The table has one entry for each header, the last one of a name. -/
theorem table_cons {h : CentralHeader} {headers : List CentralHeader} {files : Files TocEntry}
    {name : Path} (hname : nameOf h = some name) :
    table archive arcOffset (h :: headers) files =
      table archive arcOffset headers
        (Items.set files name (entryOf archive arcOffset h name)) := by
  rw [table, hname]

/-- A name that decodes is the name of the header. -/
theorem nameOf_eq_some {h : CentralHeader} {name : Path}
    (hname : decodeName h.flags.toNat h.name = .ok name) : nameOf h = some name := by
  rw [nameOf, hname, Except.toOption]

/-- And conversely. -/
theorem decodeName_of_nameOf {h : CentralHeader} {name : Path} (hname : nameOf h = some name) :
    decodeName h.flags.toNat h.name = .ok name := by
  unfold nameOf at hname
  cases hd : decodeName h.flags.toNat h.name with
  | error e => rw [hd] at hname; cases hname
  | ok n    => rw [hd] at hname; rw [Option.some.inj hname]

/-- The loop ends with a table only behind headers, and with theirs. -/
theorem readEntries_sound {files files' : Files TocEntry}
    (h : readEntries repr archive headerOffset arcOffset l files = .ok files') :
    ∃ headers, Headers headerOffset l headers ∧ files' = table archive arcOffset headers files := by
  induction hn : l.length using Nat.strong_induction_on generalizing l files with
  | _ n ih =>
  subst hn
  unfold readEntries at h
  split at h
  · cases h
  next hnone =>
    obtain ⟨hlen, hsig⟩ := (readEntry_eq_none_iff repr).mp hnone
    exact ⟨[], ⟨⟨l, rfl, hlen, hsig⟩, nofun, nofun⟩, (Except.ok.inj h).symm⟩
  next name entry size hsome =>
    obtain ⟨header, rest, rfl⟩ := exists_of_readEntry repr hsome
    rw [readEntry_encode] at hsome
    split at hsome
    · cases hsome
    next hoffset =>
    cases hd : decodeName header.flags.toNat header.name with
    | error e => rw [hd] at hsome; cases hsome
    | ok name' =>
      rw [hd] at hsome
      cases hsome
      rw [List.drop_left] at h
      -- the induction is on what is left of the archive
      have hlt : rest.length < (header.encode ++ rest).length := by
        rw [List.length_append, header.length_encode]
        omega
      obtain ⟨headers, hheaders, rfl⟩ := ih rest.length hlt h rfl
      obtain ⟨⟨tail, rfl, hlen, hsig⟩, hle, hnamed⟩ := hheaders
      have hname := nameOf_eq_some hd
      refine ⟨header :: headers, ⟨⟨tail, ?_, hlen, hsig⟩, ?_, ?_⟩, (table_cons hname).symm⟩
      · rw [directory, directory, List.flatMap_cons, List.append_assoc]
      · exact List.forall_mem_cons.mpr ⟨not_lt.mp hoffset, hle⟩
      · exact List.forall_mem_cons.mpr ⟨by rw [hname]; rfl, hnamed⟩

/-- Before headers the loop ends, with their table. -/
theorem readEntries_complete {headers : List CentralHeader} (files : Files TocEntry)
    (h : Headers headerOffset l headers) :
    readEntries repr archive headerOffset arcOffset l files =
      .ok (table archive arcOffset headers files) := by
  obtain ⟨⟨tail, rfl, hlen, hsig⟩, hle, hnamed⟩ := h
  induction headers generalizing files with
  | nil =>
    have hnone : readEntry repr archive headerOffset arcOffset (directory [] ++ tail) = .ok none :=
      (readEntry_eq_none_iff repr).mpr ⟨hlen, hsig⟩
    unfold readEntries
    split
    next heq => rw [hnone] at heq; cases heq
    next => rfl
    next heq => rw [hnone] at heq; cases heq
  -- one header is read, and the rest is what follows it
  | cons header headers ih =>
    obtain ⟨hoffset, hle⟩ := List.forall_mem_cons.mp hle
    obtain ⟨hname, hnamed⟩ := List.forall_mem_cons.mp hnamed
    obtain ⟨name, hname⟩ := Option.isSome_iff_exists.mp hname
    have hsome : readEntry repr archive headerOffset arcOffset
        (directory (header :: headers) ++ tail) =
          .ok (some ((name, entryOf archive arcOffset header name), header.encode.length)) := by
      rw [directory, List.flatMap_cons, List.append_assoc, readEntry_encode,
        if_neg (not_lt.mpr hoffset), decodeName_of_nameOf hname]
    have hdrop : (directory (header :: headers) ++ tail).drop header.encode.length =
        directory headers ++ tail := by
      rw [directory, List.flatMap_cons, List.append_assoc, List.drop_left, directory]
    unfold readEntries
    split
    next heq => rw [hsome] at heq; cases heq
    next heq => rw [hsome] at heq; cases heq
    next heq =>
      rw [hsome] at heq
      cases heq
      rw [hdrop, ih _ hle hnamed, table_cons hname]

end Loop

/-! ### The end record -/

section End

variable {archive : Path} {b : Bytes} {pos : Nat}

/-- The end record of a file is at a place: it is the last 22 bytes, or else the last one in front
    of a comment. -/
structure EndsAt (b : Bytes) (pos : Nat) : Prop where
  inside : pos + endCentralDirSize ≤ b.length
  sig    : At endSignature b pos
  last   : pos + endCentralDirSize = b.length ∨
    (¬ At endSignature b (b.length - endCentralDirSize) ∧
      b.length ≤ pos + endCentralDirSize + maxCommentLen ∧
      ∀ j, pos < j → ¬ At endSignature b j)

/-- The signature stands where the next four bytes are it. -/
theorem at_iff_chunk : At endSignature b pos ↔ chunk b pos 4 = endSignature := by
  rw [At, List.prefix_iff_eq_take, chunk, length_endSignature, eq_comm]

/-- It is found at the same place of a suffix. -/
theorem at_drop (n j : Nat) : At endSignature (b.drop n) j ↔ At endSignature b (n + j) := by
  rw [At, At, List.drop_drop]

/-- A part of a part. -/
theorem chunk_chunk {i k n : Nat} (b : Bytes) (h : i + k ≤ n) :
    chunk (chunk b pos n) i k = chunk b (pos + i) k := by
  rw [chunk, chunk, chunk, List.drop_take, List.take_take, List.drop_drop,
    Nat.min_eq_left (by omega)]

/-- A signature has all its bytes. -/
theorem le_of_at (h : At endSignature b pos) : pos + 4 ≤ b.length := by
  have hle := h.length_le
  rw [length_endSignature, List.length_drop] at hle
  omega

/-- The signature in the part of the file where an end record can be -/
theorem rfind_window {start p : Nat} (hstart : start ≤ b.length) :
    rfind endSignature (b.drop start) = some p ↔
      At endSignature b (start + p) ∧ ∀ j, start + p < j → ¬ At endSignature b j := by
  rw [rfind_eq_some_iff, at_drop, List.length_drop]
  constructor
  · rintro ⟨-, hat, hlast⟩
    refine ⟨hat, fun j hj hatj => ?_⟩
    have hle := le_of_at hatj
    obtain ⟨k, rfl⟩ := Nat.exists_eq_add_of_le (Nat.le_of_lt (Nat.lt_of_le_of_lt
      (Nat.le_add_right start p) hj))
    exact hlast k (by omega) (by omega) ((at_drop start k).mpr hatj)
  · rintro ⟨hat, hlast⟩
    have hle := le_of_at hat
    exact ⟨by omega, hat,
      fun j hj _ hatj => hlast (start + j) (by omega) ((at_drop start j).mp hatj)⟩

/-- The search from behind finds the last signature that has room for a record. -/
theorem findCommented_ok_iff {start : Nat} {buffer : Bytes} (hstart : start ≤ b.length) :
    findCommented repr archive b start = .ok (pos, buffer) ↔
      (start ≤ pos ∧ pos + endCentralDirSize ≤ b.length ∧ At endSignature b pos ∧
        ∀ j, pos < j → ¬ At endSignature b j) ∧ buffer = chunk b pos endCentralDirSize := by
  have hdata : b.length - (b.drop start).length = start := by
    rw [List.length_drop]
    omega
  have hchunk : ∀ p, chunk (b.drop start) p endCentralDirSize =
      chunk b (start + p) endCentralDirSize := by
    intro p
    rw [chunk, chunk, List.drop_drop]
  unfold findCommented
  dsimp only
  rw [hdata]
  constructor
  · intro h
    split at h
    · cases h
    next p hp =>
    split at h
    · cases h
    next hlen =>
    cases h
    obtain ⟨hat, hlast⟩ := (rfind_window hstart).mp hp
    -- a record that is whole ends in the file
    have hinside : p + endCentralDirSize ≤ (b.drop start).length :=
      le_of_length_chunk (by decide) (not_not.mp hlen)
    rw [List.length_drop] at hinside
    exact ⟨⟨Nat.le_add_right _ _, by omega, hat, hlast⟩, hchunk p⟩
  · rintro ⟨⟨hle, hinside, hat, hlast⟩, rfl⟩
    obtain ⟨p, rfl⟩ := Nat.exists_eq_add_of_le hle
    rw [(rfind_window hstart).mpr ⟨hat, hlast⟩]
    dsimp only
    rw [hchunk, if_neg (not_not.mpr (length_chunk hinside))]

/-- **The end record** that the importer takes -/
theorem findEnd_ok_iff {buffer : Bytes} : findEnd repr archive b = .ok (pos, buffer) ↔
    EndsAt b pos ∧ buffer = chunk b pos endCentralDirSize := by
  unfold findEnd
  -- an archive shorter than an end record has none
  by_cases hshort : b.length < endCentralDirSize
  · rw [if_pos hshort]
    refine ⟨nofun, fun ⟨h, _⟩ => ?_⟩
    have := h.inside
    omega
  rw [if_neg hshort]
  rw [not_lt] at hshort
  have hbuffer : (chunk b (b.length - endCentralDirSize) endCentralDirSize).length =
      endCentralDirSize := length_chunk (by omega)
  have hsig : chunk (chunk b (b.length - endCentralDirSize) endCentralDirSize) 0 4 =
      endSignature ↔ At endSignature b (b.length - endCentralDirSize) := by
    rw [at_iff_chunk, chunk_chunk b (by decide), Nat.add_zero]
  dsimp only
  rw [if_neg (not_not.mpr hbuffer)]
  by_cases hat : At endSignature b (b.length - endCentralDirSize)
  · -- no comment
    rw [if_pos (hsig.mpr hat)]
    constructor
    · intro h
      cases h
      exact ⟨⟨by omega, hat, .inl (by omega)⟩, rfl⟩
    · rintro ⟨⟨_, _, hlast | ⟨hno, _⟩⟩, rfl⟩
      · obtain rfl : pos = b.length - endCentralDirSize := by omega
        rfl
      · exact absurd hat hno
  · rw [if_neg (mt hsig.mp hat), findCommented_ok_iff repr (by omega)]
    refine and_congr_left' ⟨fun ⟨hle, hinside, hatp, hlast⟩ => ?_, fun h => ?_⟩
    · exact ⟨hinside, hatp, .inr ⟨hat, by omega, hlast⟩⟩
    · rcases h.last with heq | ⟨-, hwindow, hlast⟩
      · obtain rfl : pos = b.length - endCentralDirSize := by omega
        exact absurd h.sig hat
      · exact ⟨by omega, h.inside, h.sig, hlast⟩

/-! ### The directory -/

/-- The length of the directory, and its place behind what stands in front of the archive, as the
    end record gives them -/
def sizeAt (b : Bytes) (pos : Nat) : Nat := ofLE (chunk b (pos + 12) 4)

def offsetAt (b : Bytes) (pos : Nat) : Nat := ofLE (chunk b (pos + 16) 4)

/-- Which bytes are an archive to the importer, and which table it has -/
theorem readDirectory_eq_ok_iff {files : Files TocEntry} :
    readDirectory repr archive b = .ok files ↔
      ∃ pos headers, EndsAt b pos ∧ sizeAt b pos + offsetAt b pos ≤ pos ∧
        Headers (offsetAt b pos) (b.drop (pos - sizeAt b pos)) headers ∧
        files = table archive (pos - sizeAt b pos - offsetAt b pos) headers [] := by
  unfold readDirectory
  constructor
  · intro h
    split at h
    · cases h
    next pos buffer hend =>
    obtain ⟨hends, rfl⟩ := (findEnd_ok_iff repr).mp hend
    unfold unpackUint at h
    rw [chunk_chunk b (by decide), chunk_chunk b (by decide)] at h
    dsimp only at h
    split at h
    · cases h
    split at h
    · cases h
    split at h
    · cases h
    -- the three checks of the sizes have not failed
    obtain ⟨headers, hheaders, hfiles⟩ := readEntries_sound repr h
    exact ⟨pos, headers, hends, by unfold sizeAt offsetAt; omega, hheaders, hfiles⟩
  · rintro ⟨pos, headers, hends, hle, hheaders, rfl⟩
    have hend := (@findEnd_ok_iff repr archive _ _ _).mpr ⟨hends, rfl⟩
    rw [hend]
    unfold unpackUint
    dsimp only
    rw [chunk_chunk b (by decide), chunk_chunk b (by decide)]
    unfold sizeAt offsetAt at hle hheaders ⊢
    rw [if_neg (by omega), if_neg (by omega), if_neg (by omega)]
    exact readEntries_complete repr [] hheaders

/-- The last header of a name -/
def lastNamed (name : Path) (headers : List CentralHeader) : Option CentralHeader :=
  headers.reverse.find? fun h => nameOf h = some name

/-- A name has the entry of its last header, or what it had before. -/
theorem lookup_table (name : Path) (arcOffset : Nat) (headers : List CentralHeader)
    (files : Files TocEntry) : (table archive arcOffset headers files).lookup name =
      match lastNamed name headers with
      | some h => some (entryOf archive arcOffset h name)
      | none   => files.lookup name := by
  induction headers generalizing files with
  | nil => rfl
  | cons h headers ih =>
    have hlast : lastNamed name (h :: headers) =
        (lastNamed name headers).or (if nameOf h = some name then some h else none) := by
      rw [lastNamed, List.reverse_cons, List.find?_append, lastNamed, List.find?_singleton]
      simp
    rw [table, ih, hlast]
    cases lastNamed name headers with
    | some h' => rfl
    | none =>
      cases hn : nameOf h with
      | none => simp
      | some name' =>
        by_cases heq : name' = name
        · subst heq
          simp [Items.lookup_set]
        · have hne : name ≠ name' := Ne.symm heq
          simp [Items.lookup_set, heq, hne]

/-- No name has two entries. -/
theorem nodup_table (arcOffset : Nat) (headers : List CentralHeader) {files : Files TocEntry}
    (h : (files.map Prod.fst).Nodup) :
    ((table archive arcOffset headers files).map Prod.fst).Nodup := by
  induction headers generalizing files with
  | nil => exact h
  | cons header headers ih =>
    rw [table]
    cases nameOf header with
    | none      => exact ih h
    | some name => exact ih (Items.nodup_set h)

/-- **Which bytes are an archive to the importer, and what it finds in them**: there is an end
    record, and in front of it the directory, of headers that have names, up to other bytes; the
    table has the last header of every name, once. -/
theorem readDirectory_ok_iff {files : Files TocEntry} :
    readDirectory repr archive b = .ok files ↔
      ∃ pos headers, EndsAt b pos ∧ sizeAt b pos + offsetAt b pos ≤ pos ∧
        Headers (offsetAt b pos) (b.drop (pos - sizeAt b pos)) headers ∧
        files = table archive (pos - sizeAt b pos - offsetAt b pos) headers [] ∧
        (files.map Prod.fst).Nodup ∧
        ∀ name, files.lookup name = (lastNamed name headers).map fun h =>
          entryOf archive (pos - sizeAt b pos - offsetAt b pos) h name := by
  rw [readDirectory_eq_ok_iff]
  constructor
  · rintro ⟨pos, headers, hends, hle, hheaders, rfl⟩
    refine ⟨pos, headers, hends, hle, hheaders, rfl, nodup_table _ _ List.nodup_nil, ?_⟩
    intro name
    rw [lookup_table]
    cases lastNamed name headers <;> rfl
  · rintro ⟨pos, headers, hends, hle, hheaders, hfiles, -⟩
    exact ⟨pos, headers, hends, hle, hheaders, hfiles⟩

end End

/-! ### Archives as they are written -/

section Written

variable {archive : Path}

/-- A header belongs to one member, at its place in the body. -/
theorem mem_centrals {offset : Nat} {members : List Member} {h : CentralHeader}
    (hmem : h ∈ centrals offset members) :
    ∃ pre m post, members = pre ++ m :: post ∧ h = m.centralAt (offset + (body pre).length) := by
  induction members generalizing offset with
  | nil => cases hmem
  | cons m ms ih =>
    rcases List.mem_cons.mp hmem with rfl | hmem
    · exact ⟨[], m, ms, rfl, rfl⟩
    · obtain ⟨pre, m', post, rfl, rfl⟩ := ih hmem
      refine ⟨m :: pre, m', post, rfl, ?_⟩
      rw [body, body, List.flatMap_cons, List.length_append, Nat.add_assoc]

/-- The headers of two runs of members. -/
theorem centrals_append (offset : Nat) (pre post : List Member) :
    centrals offset (pre ++ post) =
      centrals offset pre ++ centrals (offset + (body pre).length) post := by
  induction pre generalizing offset with
  | nil => rfl
  | cons m pre ih =>
    rw [List.cons_append, centrals, ih, centrals, List.cons_append, body, body, List.flatMap_cons,
      List.length_append, Nat.add_assoc]

/-- Their bodies. -/
theorem body_append (pre post : List Member) : body (pre ++ post) = body pre ++ body post :=
  List.flatMap_append

/-- The place of a member is no part of its name. -/
@[simp] theorem nameOf_centralAt (m : Member) (offset : Nat) :
    nameOf (m.centralAt offset) = nameOf m.central := rfl

/-- The data behind a local header -/
theorem getData_of_drop (decompress : Bytes → Except PyExc Bytes) {b rest : Bytes}
    {entry : TocEntry} {m : Member} (hb : b.drop entry.fileOffset = m.encode ++ rest)
    (hsize : entry.dataSize = m.data.length) :
    getData repr decompress archive b entry =
      if entry.compress = 0 then .ok m.data else decompress m.data := by
  have hfixed : chunk b entry.fileOffset 30 = m.header.fixed := by
    rw [chunk, hb, Member.encode, LocalHeader.encode, List.append_assoc, List.append_assoc,
      List.take_append_of_le_length (by simp), List.take_of_length_le (by simp)]
  have hn : ofLE (chunk m.header.fixed 26 2) = m.header.name.length :=
    ofLE_toLE (w := 2) m.header.name_lt
  have he : ofLE (chunk m.header.fixed 28 2) = m.header.extra.length :=
    ofLE_toLE (w := 2) m.header.extra_lt
  have hsig : chunk m.header.fixed 0 4 = localSignature := rfl
  have hdata : chunk b (entry.fileOffset + (30 + m.header.name.length + m.header.extra.length))
      entry.dataSize = m.data := by
    rw [chunk, ← List.drop_drop, hb, hsize, ← m.header.length_encode, Member.encode,
      List.append_assoc, List.append_assoc, List.drop_left, List.take_left]
  unfold getData unpackUint
  dsimp only
  rw [hfixed, hn, he, hdata, if_neg (by simp), if_neg (not_not.mpr hsig),
    if_neg (not_not.mpr hsize.symm)]

variable (a : Archive)

/-- Behind what stands in front there are the members, the headers and the end record. -/
theorem drop_encode (n : Nat) : a.encode.drop (a.front.length + n) =
    (body a.members ++ (directory a.headers ++ a.endRecord.encode)).drop n := by
  rw [Archive.encode, List.drop_append, List.drop_eq_nil_of_le (Nat.le_add_right _ _),
    Nat.add_sub_cancel_left, List.nil_append]

/-- The place of the end record -/
def endPosition : Nat := a.front.length + ((body a.members).length + (directory a.headers).length)

/-- Behind those there is the end record. -/
theorem drop_endPosition (n : Nat) :
    a.encode.drop (endPosition a + n) = a.endRecord.encode.drop n := by
  rw [endPosition, Nat.add_assoc, drop_encode, ← List.append_assoc, List.drop_append,
    List.length_append, List.drop_eq_nil_of_le (by rw [List.length_append]; omega),
    Nat.add_sub_cancel_left, List.nil_append]

/-- How long an archive is. -/
theorem length_archive :
    a.encode.length = endPosition a + (endCentralDirSize + a.comment.length) := by
  have hcomment : a.endRecord.comment = a.comment := rfl
  rw [Archive.encode, endPosition, EndRecord.encode, hcomment]
  simp only [List.length_append, EndRecord.length_fixed, endCentralDirSize]
  omega

/-- A quiet archive ends at its own end record. -/
theorem endsAt_encode (hquiet : a.Quiet) : EndsAt a.encode (endPosition a) := by
  have hlen := length_archive a
  have hat : ∀ j, At endSignature a.encode (endPosition a + j) ↔
      At endSignature a.endRecord.encode j := by
    intro j
    rw [At, At, drop_endPosition]
  refine ⟨by omega, ?_, ?_⟩
  · have h0 := (hat 0).mpr (by
      rw [At, List.drop_zero, EndRecord.encode, EndRecord.fixed, List.flatten_cons,
        List.append_assoc]
      exact List.prefix_append _ _)
    rwa [Nat.add_zero] at h0
  rcases Nat.eq_zero_or_pos a.comment.length with hzero | hpos
  · exact .inl (by omega)
  · rcases hquiet with hnil | hquiet
    · rw [hnil] at hpos
      cases hpos
    refine .inr ⟨?_, ?_, fun j hj => ?_⟩
    · rw [show a.encode.length - endCentralDirSize = endPosition a + a.comment.length by omega, hat]
      exact hquiet _ hpos
    · have hc := a.comment_lt
      unfold maxCommentLen
      omega
    · obtain ⟨k, rfl⟩ := Nat.exists_eq_add_of_lt hj
      rw [Nat.add_assoc, hat]
      exact hquiet _ (Nat.succ_pos k)

/-- The record has the size of the directory, -/
theorem sizeAt_encode : sizeAt a.encode (endPosition a) = (directory a.headers).length := by
  have hchunk : chunk a.encode (endPosition a + 12) 4 = u32 a.endRecord.size := by
    rw [chunk, drop_endPosition, EndRecord.encode, List.drop_append_of_le_length (by simp),
      List.take_append_of_le_length (by simp)]
    rfl
  rw [sizeAt, hchunk, ofLE_u32]
  exact UInt32.toNat_ofNat_of_lt' a.directory_lt

/-- and its place behind the members. -/
theorem offsetAt_encode : offsetAt a.encode (endPosition a) = (body a.members).length := by
  have hchunk : chunk a.encode (endPosition a + 16) 4 = u32 a.endRecord.offset := by
    rw [chunk, drop_endPosition, EndRecord.encode, List.drop_append_of_le_length (by simp),
      List.take_append_of_le_length (by simp)]
    rfl
  rw [offsetAt, hchunk, ofLE_u32]
  exact UInt32.toNat_ofNat_of_lt' a.body_lt

/-- The offset of a member, which its header gives -/
theorem offset_centralAt {pre post : List Member} {m : Member}
    (hmembers : a.members = pre ++ m :: post) :
    (m.centralAt (body pre).length).offset.toNat = (body pre).length ∧
      (body pre).length ≤ (body a.members).length := by
  have hle : (body pre).length ≤ (body a.members).length := by
    rw [hmembers, body_append, List.length_append]
    exact Nat.le_add_right _ _
  exact ⟨UInt32.toNat_ofNat_of_lt' (Nat.lt_of_le_of_lt hle a.body_lt), hle⟩

/-- The headers are read back, if their names decode. -/
theorem headers_encode (hnames : ∀ m ∈ a.members, (nameOf m.central).isSome) :
    Headers (body a.members).length (a.encode.drop (endPosition a - (directory a.headers).length))
      a.headers := by
  refine ⟨⟨a.endRecord.encode, ?_, ?_, ?_⟩, fun h hmem => ?_, fun h hmem => ?_⟩
  · rw [show endPosition a - (directory a.headers).length =
        a.front.length + (body a.members).length by unfold endPosition; omega, drop_encode,
      List.drop_left]
  · rw [EndRecord.encode, List.length_append, EndRecord.length_fixed]
    omega
  · intro h
    cases h
  · obtain ⟨pre, m, post, hmembers, rfl⟩ := mem_centrals hmem
    rw [Nat.zero_add, (offset_centralAt a hmembers).1]
    exact (offset_centralAt a hmembers).2
  · obtain ⟨pre, m, post, hmembers, rfl⟩ := mem_centrals hmem
    rw [nameOf_centralAt]
    exact hnames m (by rw [hmembers]; simp)

/-- The importer reads the directory that was written. -/
theorem readDirectory_encode (hquiet : a.Quiet)
    (hnames : ∀ m ∈ a.members, (nameOf m.central).isSome) :
    readDirectory repr archive a.encode = .ok (table archive a.front.length a.headers []) := by
  rw [readDirectory_eq_ok_iff]
  refine ⟨endPosition a, a.headers, endsAt_encode a hquiet, ?_, ?_, ?_⟩
  · rw [sizeAt_encode, offsetAt_encode]
    unfold endPosition
    omega
  · rw [sizeAt_encode, offsetAt_encode]
    exact headers_encode a hnames
  · rw [sizeAt_encode, offsetAt_encode, show endPosition a - (directory a.headers).length -
      (body a.members).length = a.front.length by unfold endPosition; omega]

/-- The last member of a name is the one that is found. -/
theorem lastNamed_eq_some {pre post : List Member} {m : Member} {name : Path}
    (hmembers : a.members = pre ++ m :: post) (hname : nameOf m.central = some name)
    (hpost : ∀ m' ∈ post, nameOf m'.central ≠ some name) :
    lastNamed name a.headers = some (m.centralAt (body pre).length) := by
  rw [lastNamed, Archive.headers, hmembers, centrals_append, centrals, List.reverse_append,
    List.reverse_cons, List.append_assoc, List.find?_append]
  have hnone : (centrals (0 + (body pre).length + m.encode.length) post).reverse.find?
      (fun h => nameOf h = some name) = none := by
    rw [List.find?_eq_none]
    intro h hmem
    obtain ⟨pre', m', post', rfl, rfl⟩ := mem_centrals (List.mem_reverse.mp hmem)
    simpa using hpost m' (by simp)
  rw [hnone, Option.none_or, List.singleton_append, List.find?_cons_of_pos (by simpa using hname),
    Nat.zero_add]

/-- A name that no member has is not found. -/
theorem lastNamed_eq_none {name : Path}
    (h : ∀ m ∈ a.members, nameOf m.central ≠ some name) : lastNamed name a.headers = none := by
  rw [lastNamed, List.find?_eq_none]
  intro header hmem
  obtain ⟨pre, m, post, hmembers, rfl⟩ := mem_centrals (List.mem_reverse.mp hmem)
  simpa using h m (by rw [hmembers]; simp)

/-- The last member of a name -/
structure LastMember (a : Archive) (name : Path) (m : Member) : Prop where
  split : ∃ pre post, a.members = pre ++ m :: post ∧
    ∀ m' ∈ post, nameOf m'.central ≠ some name
  named : nameOf m.central = some name

/-- The data of a member, as it was before it was compressed -/
def unpacked (decompress : Bytes → Except PyExc Bytes) (m : Member) : Except PyExc Bytes :=
  if m.central.compress = 0 then .ok m.data else decompress m.data

/-- The entry of a name is that of its last member, and leads to its data. -/
theorem read_last (decompress : Bytes → Except PyExc Bytes) {name : Path} {m : Member}
    (h : LastMember a name m) :
    ∃ offset, (table archive a.front.length a.headers []).lookup name =
        some (entryOf archive a.front.length (m.centralAt offset) name) ∧
      getData repr decompress archive a.encode
        (entryOf archive a.front.length (m.centralAt offset) name) = unpacked decompress m := by
  obtain ⟨⟨pre, post, hmembers, hpost⟩, hname⟩ := h
  have hlast := lastNamed_eq_some a hmembers hname hpost
  refine ⟨(body pre).length, by rw [lookup_table, hlast], ?_⟩
  have hoffset : (entryOf archive a.front.length (m.centralAt (body pre).length)
      name).fileOffset = a.front.length + (body pre).length := by
    rw [entryOf, (offset_centralAt a hmembers).1, Nat.add_comm]
  have hdrop : a.encode.drop (a.front.length + (body pre).length) =
      m.encode ++ (body post ++ (directory a.headers ++ a.endRecord.encode)) := by
    rw [drop_encode, hmembers, body_append, List.append_assoc, List.drop_left, body,
      List.flatMap_cons, List.append_assoc, body]
  rw [getData_of_drop repr decompress (m := m) (by rw [hoffset, hdrop]) m.size_eq, unpacked]
  have hcompress : (entryOf archive a.front.length (m.centralAt (body pre).length)
      name).compress = m.central.compress.toNat := rfl
  have hzero : m.central.compress.toNat = 0 ↔ m.central.compress = 0 :=
    ⟨fun h => UInt16.toNat_inj.mp h, fun h => by rw [h]; rfl⟩
  rw [hcompress, if_congr hzero rfl rfl]

/-- **An archive is read back.**  Whatever stands in front of it, and whatever its comment is as
    long as it does not look like an end record, the importer finds the names of its members and
    no others, and for a name the data of the last member that has it. -/
theorem read_archive (decompress : Bytes → Except PyExc Bytes) (hquiet : a.Quiet)
    (hnames : ∀ m ∈ a.members, (nameOf m.central).isSome) :
    ∃ files, readDirectory repr archive a.encode = .ok files ∧
      (∀ name m, LastMember a name m → ∃ entry, files.lookup name = some entry ∧
        getData repr decompress archive a.encode entry = unpacked decompress m) ∧
      (∀ name, (∀ m ∈ a.members, nameOf m.central ≠ some name) → files.lookup name = none) := by
  refine ⟨_, readDirectory_encode repr a hquiet hnames, fun name m hlast => ?_, fun name h => ?_⟩
  · obtain ⟨offset, hlookup, hdata⟩ := @read_last repr archive a decompress _ _ hlast
    exact ⟨_, hlookup, hdata⟩
  · rw [lookup_table, lastNamed_eq_none a h]
    rfl

/-- An empty comment is short enough. -/
theorem length_nil_lt : ([] : Bytes).length < 65536 := by decide

/-- A file of midnight, the first of January 1980, that is not compressed -/
def stored (name data : Bytes) (hname : name.length < 65536) (hdata : data.length < 4294967296) :
    Member where
  header  := {
    version := 20, flags := 0, compress := 0, time := 0, date := 33, crc := 0
    dataSize := UInt32.ofNat data.length, fileSize := UInt32.ofNat data.length
    name, extra := [], name_lt := hname, extra_lt := length_nil_lt }
  data
  central := {
    versionMade := 20, versionNeeded := 20, flags := 0, compress := 0, time := 0, date := 33
    crc := 0, dataSize := UInt32.ofNat data.length, fileSize := UInt32.ofNat data.length, disk := 0
    internal := 0, external := 0, offset := 0, name, extra := [], comment := [], name_lt := hname
    extra_lt := length_nil_lt, comment_lt := length_nil_lt }
  size_eq := UInt32.toNat_ofNat_of_lt' hdata

/-- The name of a stored member. -/
theorem nameOf_stored {name data : Bytes} (hname : name.length < 65536)
    (hdata : data.length < 4294967296) :
    nameOf (stored name data hname hdata).central = (decodeName 0 name).toOption := rfl

def sampleMember (b : UInt8) : Member :=
  stored [109] [b] (by decide) (by rw [List.length_singleton]; decide)

/-- An archive with one file, twice, behind a line of a shell, and with a comment -/
def sample : Archive where
  front        := [35, 33, 10]
  members      := [sampleMember 49, sampleMember 50]
  diskEntries  := 2
  entries      := 2
  comment      := [0x50, 0x4b]
  body_lt      := by decide
  directory_lt := by decide
  comment_lt   := by decide

/-- The sample is quiet. -/
theorem quiet_sample : sample.Quiet := by
  refine .inr fun j hj hat => ?_
  have hle : j + 4 ≤ sample.endRecord.encode.length := le_of_at hat
  have hlen : sample.endRecord.encode.length = 24 := rfl
  have hno : ∀ j < 24, 0 < j → ¬ chunk sample.endRecord.encode j 4 = endSignature := by decide
  exact hno j (by omega) hj (at_iff_chunk.mp hat)

/-- Its names decode. -/
theorem named_sample : ∀ m ∈ sample.members, (nameOf m.central).isSome := by decide

/-- And it is read back. -/
theorem read_archive_sample :
    ∃ files, readDirectory String.ofList "/p.mbp".toList sample.encode = .ok files ∧
      ∃ entry, files.lookup ['m'] = some entry ∧
        getData String.ofList .ok "/p.mbp".toList sample.encode entry = .ok [50] := by
  obtain ⟨files, hfiles, hfound, -⟩ :=
    @read_archive String.ofList "/p.mbp".toList sample .ok quiet_sample named_sample
  exact ⟨files, hfiles, hfound ['m'] (sampleMember 50) ⟨⟨[sampleMember 49], [], rfl, nofun⟩, rfl⟩⟩

end Written

/-! ### Bytes in front of an archive, and behind it -/

section Surrounded

variable {archive : Path} {b : Bytes} {pos : Nat}

/-- Bytes may stand behind an archive whose end record is at the place: with them the end record
    is the last one, and near enough to the end. -/
def Behind (b : Bytes) (pos : Nat) (c : Bytes) : Prop :=
  c = [] ∨ (b.length + c.length ≤ pos + endCentralDirSize + maxCommentLen ∧
    ∀ j, pos < j → ¬ At endSignature (b ++ c) j)

/-- An entry, in a file that has more bytes in front -/
def TocEntry.shift (n : Nat) (entry : TocEntry) : TocEntry :=
  { entry with fileOffset := entry.fileOffset + n }

/-- What stands around an archive, seen from inside. -/
theorem drop_surrounded {n : Nat} (x c : Bytes) (hn : n ≤ b.length) :
    (x ++ (b ++ c)).drop (x.length + n) = b.drop n ++ c := by
  rw [List.drop_append, List.drop_eq_nil_of_le (Nat.le_add_right _ _), Nat.add_sub_cancel_left,
    List.nil_append, List.drop_append_of_le_length hn]

/-- What is read of the archive itself -/
theorem chunk_surrounded {i n : Nat} (x c : Bytes) (h : i + n ≤ b.length) :
    chunk (x ++ (b ++ c)) (x.length + i) n = chunk b i n := by
  rw [chunk_append_right, chunk_append_left h]

/-- The signature stands where it stood, moved by what is in front. -/
theorem at_surrounded (x y : Bytes) (j : Nat) :
    At endSignature (x ++ y) (x.length + j) ↔ At endSignature y j := by
  rw [at_iff_chunk, at_iff_chunk, chunk_append_right]

/-- So does the end, if what stands behind has none. -/
theorem endsAt_surrounded (x : Bytes) {c : Bytes} (h : EndsAt b pos) (hc : Behind b pos c) :
    EndsAt (x ++ (b ++ c)) (x.length + pos) := by
  have hinside := h.inside
  have hlen : (x ++ (b ++ c)).length = x.length + (b.length + c.length) := by
    rw [List.length_append, List.length_append]
  have hlater : ∀ j, x.length + pos < j →
      (∀ k, pos < k → ¬ At endSignature (b ++ c) k) → ¬ At endSignature (x ++ (b ++ c)) j := by
    intro j hj hno
    obtain ⟨k, rfl⟩ := Nat.exists_eq_add_of_le (show x.length ≤ j by omega)
    rw [at_surrounded]
    exact hno k (by omega)
  refine ⟨by omega, ?_, ?_⟩
  · rw [at_iff_chunk, chunk_surrounded x c (by unfold endCentralDirSize at hinside; omega),
      ← at_iff_chunk]
    exact h.sig
  by_cases hnil : c = []
  · subst hnil
    rw [List.append_nil] at hlen hlater ⊢
    rw [List.length_nil, Nat.add_zero] at hlen
    rcases h.last with heq | ⟨hno, hwindow, hlast⟩
    · exact .inl (by omega)
    · refine .inr ⟨?_, by omega, fun j hj => hlater j hj hlast⟩
      rw [show (x ++ b).length - endCentralDirSize =
        x.length + (b.length - endCentralDirSize) by omega, at_surrounded]
      exact hno
  · obtain ⟨hwindow, hno⟩ := hc.resolve_left hnil
    have hpos : 0 < c.length := List.length_pos_iff.mpr hnil
    exact .inr ⟨hlater _ (by omega) hno, by omega, fun j hj => hlater j hj hno⟩

/-- What stands behind the headers does not matter to them. -/
theorem headers_append {headerOffset : Nat} {l : Bytes} {headers : List CentralHeader}
    (h : Headers headerOffset l headers) (c : Bytes) : Headers headerOffset (l ++ c) headers := by
  obtain ⟨⟨tail, rfl, hlen, hsig⟩, hle, hnamed⟩ := h
  refine ⟨⟨tail ++ c, List.append_assoc _ _ _, ?_, ?_⟩, hle, hnamed⟩
  · rw [List.length_append]
    omega
  · rwa [chunk_append_left (by omega)]

/-- All offsets of the table are moved by what is in front. -/
theorem table_shift (n arcOffset : Nat) (headers : List CentralHeader) (files : Files TocEntry) :
    table archive (arcOffset + n) headers (files.map fun x => (x.1, x.2.shift n)) =
      (table archive arcOffset headers files).map fun x => (x.1, x.2.shift n) := by
  induction headers generalizing files with
  | nil => rfl
  | cons h headers ih =>
    rw [table, table]
    cases nameOf h with
    | none => exact ih files
    | some name =>
      have hentry : entryOf archive (arcOffset + n) h name =
          (entryOf archive arcOffset h name).shift n := by
        rw [entryOf, entryOf, TocEntry.shift, ← Nat.add_assoc]
      dsimp only
      rw [hentry, Items.set_map]
      exact ih _

/-- Through a moved entry the data are the same. -/
theorem getData_surrounded {decompress : Bytes → Except PyExc Bytes} {entry : TocEntry}
    {data : Bytes} (x c : Bytes) (h : getData repr decompress archive b entry = .ok data) :
    getData repr decompress archive (x ++ (b ++ c)) (entry.shift x.length) = .ok data := by
  unfold getData at h
  dsimp only at h
  split at h
  · cases h
  next hlen =>
  split at h
  · cases h
  next hsig =>
  split at h
  · cases h
  next hdata =>
  rw [not_not] at hlen hsig hdata
  -- the local header is found where it was, moved
  have hheader : chunk (x ++ (b ++ c)) (entry.shift x.length).fileOffset 30 =
      chunk b entry.fileOffset 30 := by
    rw [TocEntry.shift, Nat.add_comm]
    exact chunk_surrounded x c (le_of_length_chunk (by decide) hlen)
  -- and so are the data, if there are any
  have hraw : ∀ n, (chunk b (entry.fileOffset + n) entry.dataSize).length = entry.dataSize →
      chunk (x ++ (b ++ c)) ((entry.shift x.length).fileOffset + n) entry.dataSize =
        chunk b (entry.fileOffset + n) entry.dataSize := by
    intro n hlen
    rcases Nat.eq_zero_or_pos entry.dataSize with hzero | hpos
    · rw [hzero]
      rfl
    · rw [TocEntry.shift, Nat.add_comm entry.fileOffset, Nat.add_assoc]
      exact chunk_surrounded x c (le_of_length_chunk hpos hlen)
  have hsize : (entry.shift x.length).dataSize = entry.dataSize := rfl
  have hcompress : (entry.shift x.length).compress = entry.compress := rfl
  unfold getData
  dsimp only
  rw [hheader, if_neg (not_not.mpr hlen), if_neg (not_not.mpr hsig), hsize, hraw _ hdata,
    if_neg (not_not.mpr hdata), hcompress]
  exact h

/-- **What stands around an archive does not matter.**  With bytes in front of it, and with bytes
    behind it that leave its end record the last one, an archive has the same names, and every
    file that was read before is still read, with the same data. -/
theorem read_surrounded {files : Files TocEntry} {x c : Bytes} (hends : EndsAt b pos)
    (hc : Behind b pos c) (h : readDirectory repr archive b = .ok files) :
    readDirectory repr archive (x ++ (b ++ c)) =
        .ok (files.map fun e => (e.1, e.2.shift x.length)) ∧
      ∀ decompress entry data, getData repr decompress archive b entry = .ok data →
        getData repr decompress archive (x ++ (b ++ c)) (entry.shift x.length) = .ok data := by
  refine ⟨?_, fun _ _ _ => getData_surrounded repr x c⟩
  obtain ⟨pos', headers, hends', hle, hheaders, rfl⟩ := (readDirectory_eq_ok_iff repr).mp h
  -- an archive has one end record
  obtain rfl : pos' = pos := by
    have hfind := (@findEnd_ok_iff repr archive _ _ _).mpr ⟨hends, rfl⟩
    have hfind' := (@findEnd_ok_iff repr archive _ _ _).mpr ⟨hends', rfl⟩
    rw [hfind] at hfind'
    exact (congrArg Prod.fst (Except.ok.inj hfind')).symm
  have hinside : pos' + 22 ≤ b.length := hends.inside
  have hsize : sizeAt (x ++ (b ++ c)) (x.length + pos') = sizeAt b pos' := by
    rw [sizeAt, sizeAt, Nat.add_assoc, chunk_surrounded x c (by omega)]
  have hoffset : offsetAt (x ++ (b ++ c)) (x.length + pos') = offsetAt b pos' := by
    rw [offsetAt, offsetAt, Nat.add_assoc, chunk_surrounded x c (by omega)]
  rw [readDirectory_eq_ok_iff]
  refine ⟨x.length + pos', headers, endsAt_surrounded x hends hc, ?_, ?_, ?_⟩
  · rw [hsize, hoffset]
    omega
  · rw [hsize, hoffset, Nat.add_sub_assoc (by omega), drop_surrounded x c (by omega)]
    exact headers_append hheaders c
  · rw [hsize, hoffset, show x.length + pos' - sizeAt b pos' - offsetAt b pos' =
      pos' - sizeAt b pos' - offsetAt b pos' + x.length by omega]
    exact (table_shift x.length _ headers []).symm

/-- The sample is read with bytes around it. -/
theorem read_surrounded_sample :
    ∃ files, readDirectory String.ofList "/p.mbp".toList ([1, 2] ++ (sample.encode ++ [0])) =
      .ok files := by
  have hbehind : Behind sample.encode (endPosition sample) [0] := by
    have hb : sample.encode.length = 185 := rfl
    have hend : endPosition sample = 161 := rfl
    refine .inr ⟨?_, fun j hj hat => ?_⟩
    · rw [hb, hend]
      unfold endCentralDirSize maxCommentLen
      decide
    have hle : j + 4 ≤ (sample.encode ++ [0]).length := le_of_at hat
    have hlen : (sample.encode ++ [0]).length = 186 := rfl
    have hno : ∀ j < 186, endPosition sample < j →
        ¬ chunk (sample.encode ++ [0]) j 4 = endSignature := by decide +kernel
    exact hno j (by omega) hj (at_iff_chunk.mp hat)
  exact ⟨_, (read_surrounded String.ofList (endsAt_encode sample quiet_sample) hbehind
    (readDirectory_encode String.ofList sample quiet_sample named_sample)).1⟩

end Surrounded

end Maubot.ZipDirectory
