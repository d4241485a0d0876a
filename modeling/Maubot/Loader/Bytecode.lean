import Maubot.Loader.ZipDirectory

namespace Maubot.Bytecode

/-!
# Byte code and sources in an archive — `lib/zipimport.py`

A module is a source, or byte code that was compiled from it; next to a source, byte code counts
only if the time in it is that of the source.

* `unmarshalCode`, `compileSource`, `parseDostime` — as in the source;
* `reader` — how an archive of bytes is read;
* `getModuleCode_ok_iff` — which file the code of a module comes from;
* `getModuleCode_written` — a module of an archive with its source and its byte code.
-/

open Bytes Zipimport ZipDirectory ZipFormat

/-- The first six fields of a `time.struct_time`; the others are -1. -/
structure LocalTime where
  year   : Nat
  month  : Nat
  day    : Nat
  hour   : Nat
  minute : Nat
  second : Nat
  deriving DecidableEq

/-- What Python does, with code objects `C` -/
structure Interpreter (C : Type) where
  magicNumber        : Bytes
  /-- `_imp.check_hash_based_pycs` -/
  checkHashBasedPycs : String
  /-- `marshal.loads`; `none` is an object that is not code. -/
  loads              : Bytes → Except PyExc (Option C)
  /-- `compile(source, pathname, "exec", dont_inherit=True)` -/
  compile            : Bytes → Path → Except PyExc C
  /-- `time.mktime`, in whole seconds -/
  mktime             : LocalTime → Except PyExc Int
  /-- `zlib.decompress(data, -15)`, with the import of `zlib` -/
  decompress         : Bytes → Except PyExc Bytes
  coNames            : C → List String

variable {C : Type} (I : Interpreter C) (repr : Path → String)

/-- `_eq_mtime` -/
def eqMtime (t₁ t₂ : Int) : Bool := decide ((t₁ - t₂).natAbs ≤ 1)

/-- Whether `_unmarshal_code` turns byte code down for its flags, or for the time in it -/
def refused (flags stamp : Nat) (mtime : Int) : Bool :=
  if flags ≠ 0 then
    I.checkHashBasedPycs ≠ "never" && (flags ≠ 1 || I.checkHashBasedPycs == "always")
  else mtime ≠ 0 && !eqMtime stamp mtime

/-- `_unmarshal_code(pathname, data, mtime)` -/
def unmarshalCode (pathname : Path) (data : Bytes) (mtime : Int) : Except PyExc (Option C) :=
  if data.length < 16 then .error ⟨.zipImportError, "bad pyc data"⟩
  else if chunk data 0 4 ≠ I.magicNumber then .ok none
  else if refused I (unpackUint (chunk data 4 4)) (unpackUint (chunk data 8 4)) mtime then .ok none
  else
    match I.loads (data.drop 16) with
    | .error e        => .error e
    | .ok none        =>
      .error ⟨.typeError, "compiled module " ++ repr pathname ++ " is not a code object"⟩
    | .ok (some code) => .ok (some code)

/-- `_normalize_line_endings` -/
def normalizeLineEndings (source : Bytes) : Bytes :=
  replace 13 [] [10] (replace 13 [10] [10] source)

/-- `_compile_source` -/
def compileSource (pathname : Path) (source : Bytes) : Except PyExc C :=
  I.compile (normalizeLineEndings source) pathname

/-- `_parse_dostime` -/
def parseDostime (d t : Nat) : Except PyExc Int :=
  I.mktime {
    year   := (d >>> 9) + 1980
    month  := (d >>> 5) &&& 0xF
    day    := d &&& 0x1F
    hour   := t >>> 11
    minute := (t >>> 5) &&& 0x3F
    second := (t &&& 0x1F) * 2 }

/-- `_get_mtime_of_source`, with the entry of the source if there is one -/
def getMtimeOfSource (tocEntry : Option TocEntry) : Except PyExc Int :=
  match tocEntry with
  | none       => .ok 0
  | some entry =>
    match parseDostime I entry.date entry.time with
    | .ok mtime => .ok mtime
    | .error e  =>
      if e.isA .keyError || e.isA .indexError || e.isA .typeError then .ok 0 else .error e

/-- How an archive of bytes is read -/
def reader (archive : Path) : Reader Bytes TocEntry C where
  readDirectory := ZipDirectory.readDirectory repr archive
  compileSource b entry :=
    match getData repr I.decompress archive b entry with
    | .error e => .error e
    | .ok data => compileSource I entry.path data
  unmarshalCode b entry source :=
    match getData repr I.decompress archive b entry with
    | .error e => .error e
    | .ok data =>
      match getMtimeOfSource I source with
      | .error e  => .error e
      | .ok mtime => unmarshalCode I repr entry.path data mtime
  coNames       := I.coNames
  repr          := repr

/-! ### Line endings -/

/-- Every line ending is a `\n`. -/
def unixLines : Bytes → Bytes
  | []             => []
  | 13 :: 10 :: l  => 10 :: unixLines l
  | c :: l         => (if c = 13 then 10 else c) :: unixLines l

/-- A carriage return and its newline become one, -/
theorem replace_crlf_cons (l : Bytes) : replace 13 [10] [10] ((13 : UInt8) :: 10 :: l) =
    10 :: replace 13 [10] [10] l := by
  rw [replace]
  simp

/-- and any other byte stays. -/
theorem replace_crlf_other {c : UInt8} {l : Bytes} (h : ¬ (c = 13 ∧ l.head? = some 10)) :
    replace 13 [10] [10] (c :: l) = c :: replace 13 [10] [10] l := by
  rw [replace, if_neg]
  intro hp
  cases l with
  | nil => simp at hp
  | cons d l => simp at hp; exact h ⟨hp.1.symm, by simp [hp.2.symm]⟩

/-- The two replacements of the source are one pass over it. -/
theorem normalizeLineEndings_eq (source : Bytes) :
    normalizeLineEndings source = unixLines source := by
  unfold normalizeLineEndings
  rw [replace_single]
  induction source using unixLines.induct with
  | case1 => rw [replace]; rfl
  | case2 l ih =>
    rw [replace_crlf_cons, List.flatMap_cons, ih, unixLines]
    rfl
  | case3 c l hne ih =>
    have hother : ¬ (c = 13 ∧ l.head? = some 10) := by
      rintro ⟨rfl, hl⟩
      obtain ⟨l', rfl⟩ := List.head?_eq_some_iff.mp hl
      exact hne l' rfl rfl
    rw [replace_crlf_other hother, List.flatMap_cons, ih, unixLines]
    · by_cases hc : c = 13 <;> simp [hc]
    · exact hne

/-! ### Which byte code counts -/

/-- Byte code with another magic number, or turned down for its flags or its time -/
def Stale (data : Bytes) (mtime : Int) : Prop :=
  chunk data 0 4 ≠ I.magicNumber ∨
    refused I (unpackUint (chunk data 4 4)) (unpackUint (chunk data 8 4)) mtime = true

instance (data : Bytes) (mtime : Int) : Decidable (Stale I data mtime) :=
  inferInstanceAs (Decidable (_ ∨ _))

/-- A stale file has no code. -/
theorem unmarshalCode_of_stale {pathname : Path} {data : Bytes} {mtime : Int}
    (hlen : 16 ≤ data.length) (h : Stale I data mtime) :
    unmarshalCode I repr pathname data mtime = .ok none := by
  rw [unmarshalCode, if_neg (not_lt.mpr hlen)]
  by_cases hmagic : chunk data 0 4 = I.magicNumber
  · rw [if_neg (not_not.mpr hmagic), if_pos (h.resolve_left (not_not.mpr hmagic))]
  · rw [if_pos hmagic]

/-- A fresh one has what is marshalled in it, or raises. -/
theorem unmarshalCode_of_fresh {pathname : Path} {data : Bytes} {mtime : Int}
    (hlen : 16 ≤ data.length) (h : ¬ Stale I data mtime) :
    unmarshalCode I repr pathname data mtime =
      match I.loads (data.drop 16) with
      | .error e        => .error e
      | .ok none        =>
        .error ⟨.typeError, "compiled module " ++ repr pathname ++ " is not a code object"⟩
      | .ok (some code) => .ok (some code) := by
  rw [Stale, not_or, not_not] at h
  rw [unmarshalCode, if_neg (not_lt.mpr hlen), if_neg (not_not.mpr h.1), if_neg h.2]

/-- So there is none exactly in a stale file, -/
theorem unmarshalCode_eq_none_iff {pathname : Path} {data : Bytes} {mtime : Int} :
    unmarshalCode I repr pathname data mtime = .ok none ↔
      16 ≤ data.length ∧ Stale I data mtime := by
  refine ⟨fun h => ?_, fun h => unmarshalCode_of_stale I repr h.1 h.2⟩
  by_cases hlen : 16 ≤ data.length
  · by_cases hstale : Stale I data mtime
    · exact ⟨hlen, hstale⟩
    · rw [unmarshalCode_of_fresh I repr hlen hstale] at h
      split at h <;> cases h
  · rw [unmarshalCode, if_pos (not_le.mp hlen)] at h
    cases h

/-- and some exactly in a fresh one that can be unmarshalled. -/
theorem unmarshalCode_eq_some_iff {pathname : Path} {data : Bytes} {mtime : Int} {c : C} :
    unmarshalCode I repr pathname data mtime = .ok (some c) ↔
      16 ≤ data.length ∧ ¬ Stale I data mtime ∧ I.loads (data.drop 16) = .ok (some c) := by
  constructor
  · intro h
    by_cases hlen : 16 ≤ data.length
    · by_cases hstale : Stale I data mtime
      · rw [unmarshalCode_of_stale I repr hlen hstale] at h
        cases h
      · rw [unmarshalCode_of_fresh I repr hlen hstale] at h
        split at h
        · cases h
        · cases h
        next hloads =>
          cases h
          exact ⟨hlen, hstale, hloads⟩
    · rw [unmarshalCode, if_pos (not_le.mp hlen)] at h
      cases h
  · rintro ⟨hlen, hstale, hloads⟩
    rw [unmarshalCode_of_fresh I repr hlen hstale, hloads]

/-! ### The search -/

section Search

variable {archive fullname : Path} {b : Bytes} {files : Files TocEntry} {c : C} {ispackage : Bool}

/-- A file that the search goes past: it is not there, or it is byte code that does not count. -/
def PassedOver (archive fullname : Path) (b : Bytes) (files : Files TocEntry)
    (x : Path × Bool × Bool) : Prop :=
  files.lookup (getModulePath fullname ++ x.1) = none ∨
    x.2.1 = true ∧ ∃ entry data mtime,
      files.lookup (getModulePath fullname ++ x.1) = some entry ∧
      getData repr I.decompress archive b entry = .ok data ∧
      getMtimeOfSource I (files.lookup (getModulePath fullname ++ x.1).dropLast) = .ok mtime ∧
      16 ≤ data.length ∧ Stale I data mtime

/-- A file that the code comes from: byte code that counts, or a source. -/
def Gives (archive fullname : Path) (b : Bytes) (files : Files TocEntry)
    (x : Path × Bool × Bool) (c : C) : Prop :=
  ∃ entry data, files.lookup (getModulePath fullname ++ x.1) = some entry ∧
    getData repr I.decompress archive b entry = .ok data ∧
    if x.2.1 = true then
      ∃ mtime, getMtimeOfSource I (files.lookup (getModulePath fullname ++ x.1).dropLast) =
          .ok mtime ∧
        16 ≤ data.length ∧ ¬ Stale I data mtime ∧ I.loads (data.drop 16) = .ok (some c)
    else I.compile (unixLines data) entry.path = .ok c

/-- A candidate that gives nothing is passed over. -/
theorem searchCode_of_passedOver {x : Path × Bool × Bool} (order : List (Path × Bool × Bool))
    (h : PassedOver I repr archive fullname b files x) :
    searchCode (reader I repr archive) (some b) files fullname (x :: order) =
      searchCode (reader I repr archive) (some b) files fullname order := by
  obtain ⟨suffix, isbytecode, pkg⟩ := x
  rw [searchCode]
  rcases h with hnone | ⟨rfl, entry, data, mtime, hentry, hdata, hmtime, hlen, hstale⟩
  · rw [hnone]
  · have hskip := @unmarshalCode_of_stale _ I repr entry.path _ _ hlen hstale
    simp only [hentry, if_true, reader, hdata, hmtime, hskip]

/-- The search at a source -/
theorem searchCode_source {suffix : Path} {order : List (Path × Bool × Bool)} {entry : TocEntry}
    {data : Bytes} (hentry : files.lookup (getModulePath fullname ++ suffix) = some entry)
    (hdata : getData repr I.decompress archive b entry = .ok data) :
    searchCode (reader I repr archive) (some b) files fullname
        ((suffix, false, ispackage) :: order) =
      (I.compile (unixLines data) entry.path).map fun code => (code, ispackage) := by
  rw [searchCode, hentry]
  simp only [Bool.false_eq_true, if_false, reader, hdata, compileSource, normalizeLineEndings_eq]

/-- The first one that gives code is taken. -/
theorem searchCode_of_gives {x : Path × Bool × Bool} (order : List (Path × Bool × Bool))
    (h : Gives I repr archive fullname b files x c) :
    searchCode (reader I repr archive) (some b) files fullname (x :: order) = .ok (c, x.2.2) := by
  obtain ⟨suffix, isbytecode, pkg⟩ := x
  obtain ⟨entry, data, hentry, hdata, hcode⟩ := h
  cases isbytecode with
  | true =>
    rw [searchCode]
    obtain ⟨mtime, hmtime, hfresh⟩ := hcode
    have hcode := (@unmarshalCode_eq_some_iff _ I repr entry.path _ _ _).mpr hfresh
    simp only [hentry, if_true, reader, hdata, hmtime, hcode]
  | false =>
    have hsource : I.compile (unixLines data) entry.path = .ok c := hcode
    rw [searchCode_source I repr hentry hdata, hsource, Except.map]

/-- One turn of the search that does not fail -/
theorem searchCode_cons {x : Path × Bool × Bool} {order : List (Path × Bool × Bool)}
    (h : searchCode (reader I repr archive) (some b) files fullname (x :: order) =
      .ok (c, ispackage)) :
    (PassedOver I repr archive fullname b files x ∧
      searchCode (reader I repr archive) (some b) files fullname order = .ok (c, ispackage)) ∨
    (Gives I repr archive fullname b files x c ∧ ispackage = x.2.2) := by
  obtain ⟨suffix, isbytecode, pkg⟩ := x
  rw [searchCode] at h
  cases hentry : files.lookup (getModulePath fullname ++ suffix) with
  | none =>
    rw [hentry] at h
    exact .inl ⟨.inl hentry, h⟩
  | some entry =>
    simp only [hentry, reader] at h
    cases hdata : getData repr I.decompress archive b entry with
    | error e =>
      rw [hdata] at h
      cases isbytecode <;> cases h
    | ok data =>
      rw [hdata] at h
      cases isbytecode with
      -- compiled: what is stale is passed over, and every other failure raises
      | true =>
        rw [if_pos rfl] at h
        cases hmtime : getMtimeOfSource I
            (files.lookup (getModulePath fullname ++ suffix).dropLast) with
        | error e => rw [hmtime] at h; cases h
        | ok mtime =>
          rw [hmtime] at h
          dsimp only at h
          cases hcode : unmarshalCode I repr entry.path data mtime with
          | error e => rw [hcode] at h; cases h
          | ok code =>
            rw [hcode] at h
            cases code with
            | none =>
              obtain ⟨hlen, hstale⟩ := (unmarshalCode_eq_none_iff I repr).mp hcode
              exact .inl ⟨.inr ⟨rfl, entry, data, mtime, hentry, hdata, hmtime, hlen, hstale⟩, h⟩
            | some code =>
              cases h
              have hfresh := (unmarshalCode_eq_some_iff I repr).mp hcode
              exact .inr ⟨⟨entry, data, hentry, hdata, mtime, hmtime, hfresh⟩, rfl⟩
      -- source: it is compiled, or the search ends
      | false =>
        rw [if_neg Bool.false_ne_true] at h
        dsimp only at h
        rw [compileSource, normalizeLineEndings_eq] at h
        cases hcode : I.compile (unixLines data) entry.path with
        | error e => rw [hcode] at h; cases h
        | ok code =>
          rw [hcode] at h
          cases h
          exact .inr ⟨⟨entry, data, hentry, hdata, hcode⟩, rfl⟩

/-- The search ends with the first file that it does not go past. -/
theorem searchCode_ok_iff {order : List (Path × Bool × Bool)} :
    searchCode (reader I repr archive) (some b) files fullname order = .ok (c, ispackage) ↔
      ∃ pre x post, order = pre ++ x :: post ∧
        (∀ y ∈ pre, PassedOver I repr archive fullname b files y) ∧
        Gives I repr archive fullname b files x c ∧ ispackage = x.2.2 := by
  induction order with
  | nil =>
    refine ⟨nofun, ?_⟩
    rintro ⟨pre, x, post, hnil, -⟩
    exact absurd hnil.symm (by simp)
  | cons x order ih =>
    constructor
    · intro h
      rcases searchCode_cons I repr h with ⟨hpass, hrest⟩ | ⟨hgives, hpkg⟩
      · obtain ⟨pre, y, post, rfl, hpre, hgives, hpkg⟩ := ih.mp hrest
        exact ⟨x :: pre, y, post, rfl, List.forall_mem_cons.mpr ⟨hpass, hpre⟩, hgives, hpkg⟩
      · exact ⟨[], x, order, rfl, nofun, hgives, hpkg⟩
    · rintro ⟨pre, y, post, horder, hpre, hgives, hpkg⟩
      cases pre with
      | nil =>
        cases horder
        rw [searchCode_of_gives I repr _ hgives, hpkg]
      | cons z pre =>
        cases horder
        obtain ⟨hz, hpre⟩ := List.forall_mem_cons.mp hpre
        rw [searchCode_of_passedOver I repr _ hz]
        exact ih.mpr ⟨pre, y, post, rfl, hpre, hgives, hpkg⟩

/-- **Where the code of a module comes from**: the first of the package's byte code, its source,
    the module's byte code and its source that is in the archive, and if it is byte code, has this
    Python's magic number and the time of the source next to it.  Byte code that does not is never
    run. -/
theorem getModuleCode_ok_iff :
    getModuleCode (reader I repr archive) (some b) files fullname = .ok (c, ispackage) ↔
      ∃ pre x post, zipSearchorder = pre ++ x :: post ∧
        (∀ y ∈ pre, PassedOver I repr archive fullname b files y) ∧
        Gives I repr archive fullname b files x c ∧ ispackage = x.2.2 :=
  searchCode_ok_iff I repr

end Search

/-! ### Times -/

/-- The date and the time of a file, as an archive holds them: of the seconds, the half -/
def dosDate (t : LocalTime) : Nat := (t.year - 1980) <<< 9 ||| t.month <<< 5 ||| t.day

def dosTime (t : LocalTime) : Nat := t.hour <<< 11 ||| t.minute <<< 5 ||| t.second / 2

/-- A time that an archive can hold -/
structure LocalTime.InDos (t : LocalTime) : Prop where
  year_ge : 1980 ≤ t.year
  year_lt : t.year < 2108
  month   : t.month < 16
  day     : t.day < 32
  hour    : t.hour < 32
  minute  : t.minute < 64
  second  : t.second < 64

/-- The time with its last odd second left out -/
def LocalTime.even (t : LocalTime) : LocalTime := { t with second := t.second / 2 * 2 }

/-- Fields that are shifted and joined are a sum. -/
theorem pack_eq {x y z : Nat} (k n : Nat) (hy : y < 2 ^ k) (hz : z < 2 ^ n) :
    x <<< (n + k) ||| y <<< n ||| z = (x * 2 ^ k + y) * 2 ^ n + z := by
  rw [Nat.add_comm n k, Nat.shiftLeft_add, ← Nat.shiftLeft_or_distrib,
    ← Nat.shiftLeft_add_eq_or_of_lt hy, ← Nat.shiftLeft_add_eq_or_of_lt hz, Nat.shiftLeft_eq,
    Nat.shiftLeft_eq]

/-- So the date of the header is one, -/
theorem dosDate_eq {t : LocalTime} (h : t.InDos) :
    dosDate t = ((t.year - 1980) * 2 ^ 4 + t.month) * 2 ^ 5 + t.day :=
  pack_eq 4 5 h.month h.day

/-- and so is the time. -/
theorem dosTime_eq {t : LocalTime} (h : t.InDos) :
    dosTime t = (t.hour * 2 ^ 6 + t.minute) * 2 ^ 5 + t.second / 2 :=
  pack_eq 6 5 h.minute (by have := h.second; omega)

/-- **The time of a file is read back**, but for an odd second. -/
theorem parseDostime_dos {t : LocalTime} (h : t.InDos) :
    parseDostime I (dosDate t) (dosTime t) = I.mktime t.even := by
  obtain ⟨hge, hlt, hmonth, hday, hhour, hminute, hsecond⟩ := h
  unfold parseDostime
  rw [dosDate_eq ⟨hge, hlt, hmonth, hday, hhour, hminute, hsecond⟩,
    dosTime_eq ⟨hge, hlt, hmonth, hday, hhour, hminute, hsecond⟩]
  rw [show (0xF : Nat) = 2 ^ 4 - 1 from rfl, show (0x1F : Nat) = 2 ^ 5 - 1 from rfl,
    show (0x3F : Nat) = 2 ^ 6 - 1 from rfl]
  simp only [Nat.and_two_pow_sub_one_eq_mod, Nat.shiftRight_eq_div_pow]
  congr 1
  rw [LocalTime.even, LocalTime.mk.injEq]
  refine ⟨?_, ?_, ?_, ?_, ?_, ?_⟩ <;> omega

/-! ### A module with its source and its byte code -/

section Written

variable {archive fullname mod : Path} {a : Archive} {source pyc : Member}

/-- A module of an archive, next to no package of the same name -/
structure HasModule (a : Archive) (mod : Path) (source pyc : Member) : Prop where
  source  : LastMember a (mod ++ ".py".toList) source
  pyc     : LastMember a (mod ++ ".pyc".toList) pyc
  noInit  : ∀ m ∈ a.members, nameOf m.central ≠ some (mod ++ "/__init__.py".toList)
  noInitc : ∀ m ∈ a.members, nameOf m.central ≠ some (mod ++ "/__init__.pyc".toList)

/-- The source of a compiled file has its name without the `c`. -/
theorem dropLast_pyc (mod : Path) :
    (mod ++ ".pyc".toList).dropLast = mod ++ ".py".toList := by
  rw [List.dropLast_append_of_ne_nil (by decide)]
  rfl

/-- A name that no member has is not in the table. -/
theorem lookup_of_absent {name : Path} (arcOffset : Nat)
    (h : ∀ m ∈ a.members, nameOf m.central ≠ some name) :
    (table archive arcOffset a.headers []).lookup name = none := by
  rw [lookup_table, lastNamed_eq_none a h]
  rfl

/-- The search comes to the byte code of the module. -/
theorem getModuleCode_eq (h : HasModule a mod source pyc) (hmod : getModulePath fullname = mod)
    (b : Bytes) :
    getModuleCode (reader I repr archive) (some b) (table archive a.front.length a.headers [])
        fullname =
      searchCode (reader I repr archive) (some b) (table archive a.front.length a.headers [])
        fullname [(".pyc".toList, true, false), (".py".toList, false, false)] := by
  have hinitc : (table archive a.front.length a.headers []).lookup
      (getModulePath fullname ++ "/__init__.pyc".toList) = none := by
    rw [hmod]
    exact lookup_of_absent _ h.noInitc
  have hinit : (table archive a.front.length a.headers []).lookup
      (getModulePath fullname ++ "/__init__.py".toList) = none := by
    rw [hmod]
    exact lookup_of_absent _ h.noInit
  rw [getModuleCode, zipSearchorder, searchCode_of_passedOver I repr _ (.inl hinitc),
    searchCode_of_passedOver I repr _ (.inl hinit)]

/-- Byte code with a time in it -/
def timedPyc (stamp size : UInt32) (code : Bytes) : Bytes :=
  I.magicNumber ++ (u32 0 ++ (u32 stamp ++ (u32 size ++ code)))

variable {I} in
/-- The four fields of a compiled file's header. -/
theorem chunk_timedPyc (hmagic : I.magicNumber.length = 4) (stamp size : UInt32) (code : Bytes) :
    chunk (timedPyc I stamp size code) 0 4 = I.magicNumber ∧
    chunk (timedPyc I stamp size code) 4 4 = u32 0 ∧
    chunk (timedPyc I stamp size code) 8 4 = u32 stamp ∧
    (timedPyc I stamp size code).drop 16 = code ∧ 16 ≤ (timedPyc I stamp size code).length := by
  have hshift : ∀ i n, chunk (timedPyc I stamp size code) (4 + i) n =
      chunk (u32 0 ++ (u32 stamp ++ (u32 size ++ code))) i n := by
    intro i n
    rw [← hmagic, timedPyc, chunk_append_right]
  refine ⟨?_, hshift 0 4, hshift 4 4, ?_, ?_⟩
  · rw [chunk, List.drop_zero, timedPyc, List.take_append_of_le_length (by omega), ← hmagic,
      List.take_length]
  · rw [timedPyc, List.drop_append, List.drop_eq_nil_of_le (by omega), hmagic]
    rfl
  · rw [timedPyc]
    simp only [List.length_append, length_u32]
    omega

variable {I} in
/-- It is stale if its time is off by more than a second, and there is a time to compare. -/
theorem stale_timedPyc_iff (hmagic : I.magicNumber.length = 4) {stamp size : UInt32}
    {code : Bytes} {mtime : Int} :
    Stale I (timedPyc I stamp size code) mtime ↔
      mtime ≠ 0 ∧ 1 < ((stamp.toNat : Int) - mtime).natAbs := by
  obtain ⟨h0, h4, h8, -⟩ := chunk_timedPyc hmagic stamp size code
  have hflags : unpackUint (u32 0) = 0 := rfl
  have hstamp : unpackUint (u32 stamp) = stamp.toNat := ofLE_u32 stamp
  rw [Stale, h0, h4, h8, hflags, hstamp, refused, eqMtime]
  simp

/-- **Byte code counts only with the time of its source.**  An archive has a module, with its
    source and byte code.  If the time in the byte code is the one of the source, of which an odd
    second is not in the archive, the code is that of the byte code; with another time it is
    that of the source, whatever its line endings are. -/
theorem getModuleCode_written (hquiet : a.Quiet)
    (hnames : ∀ m ∈ a.members, (nameOf m.central).isSome) (h : HasModule a mod source pyc)
    (hmod : getModulePath fullname = mod) (hmagic : I.magicNumber.length = 4)
    {text code : Bytes} {stamp size : UInt32} {c : C} {t : LocalTime} {mtime : Int}
    (htext : unpacked I.decompress source = .ok text)
    (hcode : unpacked I.decompress pyc = .ok (timedPyc I stamp size code))
    (hloads : I.loads code = .ok (some c))
    (ht : t.InDos) (hdate : source.central.date.toNat = dosDate t)
    (htime : source.central.time.toNat = dosTime t) (hmktime : I.mktime t.even = .ok mtime) :
    ∃ files, Zipimport.readDirectory (reader I repr archive) archive (some a.encode) = .ok files ∧
      (((stamp.toNat : Int) - mtime).natAbs ≤ 1 →
        getModuleCode (reader I repr archive) (some a.encode) files fullname = .ok (c, false)) ∧
      (mtime ≠ 0 → 1 < ((stamp.toNat : Int) - mtime).natAbs →
        getModuleCode (reader I repr archive) (some a.encode) files fullname =
          (I.compile (unixLines text) (pathJoin [archive, mod ++ ".py".toList])).map
            fun code => (code, false)) := by
  subst hmod
  obtain ⟨i, hpyc, hpycData⟩ := @read_last repr archive a I.decompress _ _ h.pyc
  obtain ⟨j, hsource, hsourceData⟩ := @read_last repr archive a I.decompress _ _ h.source
  obtain ⟨-, -, -, hdrop, hlen⟩ := chunk_timedPyc hmagic stamp size code
  rw [hcode] at hpycData
  rw [htext] at hsourceData
  -- the time of the source is read back from its header
  have hmtime : getMtimeOfSource I ((table archive a.front.length a.headers []).lookup
      (getModulePath fullname ++ ".pyc".toList).dropLast) = .ok mtime := by
    have hread : parseDostime I source.central.date.toNat source.central.time.toNat =
        .ok mtime := by
      rw [hdate, htime, parseDostime_dos I ht, hmktime]
    rw [dropLast_pyc, hsource, getMtimeOfSource, entryOf]
    change (match parseDostime I source.central.date.toNat source.central.time.toNat with
      | .ok mtime => _
      | .error e => _) = _
    rw [hread]
  -- the compiled file comes first in the search; it is fresh or stale by its time
  refine ⟨_, readDirectory_encode repr a hquiet hnames, fun hnear => ?_, fun hzero hfar => ?_⟩
  · have hfresh : ¬ Stale I (timedPyc I stamp size code) mtime := by
      rw [stale_timedPyc_iff hmagic]
      omega
    rw [getModuleCode_eq I repr h rfl]
    exact searchCode_of_gives I repr _
      ⟨_, _, hpyc, hpycData, mtime, hmtime, hlen, hfresh, by rw [hdrop]; exact hloads⟩
  · have hstale : Stale I (timedPyc I stamp size code) mtime :=
      (stale_timedPyc_iff hmagic).mpr ⟨hzero, hfar⟩
    rw [getModuleCode_eq I repr h rfl, searchCode_of_passedOver I repr _
      (.inr ⟨rfl, _, _, mtime, hpyc, hpycData, hmtime, hlen, hstale⟩),
      searchCode_source I repr hsource hsourceData]
    rfl

/-- A Python in January 1980, of UTC, whose code objects are their texts -/
def samplePython : Interpreter Bytes where
  magicNumber        := [0xcb, 0x0d, 0x0d, 0x0a]
  checkHashBasedPycs := "default"
  loads data         := .ok (some data)
  compile source _   := .ok source
  mktime t           :=
    .ok (315532800 + 86400 * (t.day - 1) + 3600 * t.hour + 60 * t.minute + t.second)
  decompress _       := .error ⟨.zipImportError, "can't decompress data; zlib not available"⟩
  coNames _          := []

def sampleSource : Member := stored [109, 46, 112, 121] [49, 13, 10] (by decide) (by decide)

def samplePyc (stamp : UInt32) : Member :=
  stored [109, 46, 112, 121, 99] (timedPyc samplePython stamp 3 [49, 50]) (by decide) (by
    rw [show (timedPyc samplePython stamp 3 [49, 50]).length = 18 from rfl]
    decide)

/-- The name of the compiled file of the sample. -/
theorem nameOf_samplePyc (stamp : UInt32) :
    nameOf (samplePyc stamp).central = some "m.pyc".toList := by
  rw [samplePyc, nameOf_stored]
  rfl

/-- An archive with a module -/
def sampleModule (stamp : UInt32) : Archive where
  members      := [sampleSource, samplePyc stamp]
  diskEntries  := 2
  entries      := 2
  body_lt      := by
    rw [show (body [sampleSource, samplePyc stamp]).length = 90 from rfl]
    decide
  directory_lt := by
    rw [show (ZipFormat.directory (centrals 0 [sampleSource, samplePyc stamp])).length = 101 from rfl]
    decide
  comment_lt   := length_nil_lt

/-- The names of the sample decode. -/
theorem named_sampleModule (stamp : UInt32) :
    ∀ m ∈ (sampleModule stamp).members, (nameOf m.central).isSome :=
  List.forall_mem_cons.mpr ⟨rfl, List.forall_mem_cons.mpr ⟨by rw [nameOf_samplePyc]; rfl, nofun⟩⟩

/-- It has the module twice, as source and compiled. -/
theorem hasModule_sampleModule (stamp : UInt32) :
    HasModule (sampleModule stamp) ['m'] sampleSource (samplePyc stamp) where
  source  := by
    refine ⟨⟨[], [samplePyc stamp], rfl, List.forall_mem_cons.mpr ⟨?_, nofun⟩⟩, rfl⟩
    rw [nameOf_samplePyc]
    decide
  pyc     := ⟨⟨[sampleSource], [], rfl, nofun⟩, nameOf_samplePyc stamp⟩
  noInit  := by
    refine List.forall_mem_cons.mpr ⟨by decide, List.forall_mem_cons.mpr ⟨?_, nofun⟩⟩
    rw [nameOf_samplePyc]
    decide
  noInitc := by
    refine List.forall_mem_cons.mpr ⟨by decide, List.forall_mem_cons.mpr ⟨?_, nofun⟩⟩
    rw [nameOf_samplePyc]
    decide

/-- Byte code of the time of the source, and of a day later -/
theorem getModuleCode_written_sample :
    (∃ files, Zipimport.readDirectory (reader samplePython String.ofList "/p".toList)
        "/p".toList (some (sampleModule 315532800).encode) = .ok files ∧
      getModuleCode (reader samplePython String.ofList "/p".toList)
        (some (sampleModule 315532800).encode) files ['m'] = .ok ([49, 50], false)) ∧
    ∃ files, Zipimport.readDirectory (reader samplePython String.ofList "/p".toList)
        "/p".toList (some (sampleModule 315619200).encode) = .ok files ∧
      getModuleCode (reader samplePython String.ofList "/p".toList)
        (some (sampleModule 315619200).encode) files ['m'] = .ok ([49, 10], false) := by
  have hdos : (⟨1980, 1, 1, 0, 0, 0⟩ : LocalTime).InDos :=
    ⟨by decide, by decide, by decide, by decide, by decide, by decide, by decide⟩
  have hmktime : samplePython.mktime (⟨1980, 1, 1, 0, 0, 0⟩ : LocalTime).even = .ok 315532800 := rfl
  have hmodule : ∀ stamp, _ := fun stamp =>
    @getModuleCode_written _ samplePython String.ofList "/p".toList ['m'] _ _ _ _
      (.inl rfl) (named_sampleModule stamp) (hasModule_sampleModule stamp) rfl rfl
      _ _ _ _ _ _ _ rfl rfl rfl hdos rfl rfl hmktime
  obtain ⟨files, hfiles, hown, -⟩ := hmodule 315532800
  obtain ⟨files', hfiles', -, hother⟩ := hmodule 315619200
  exact ⟨⟨files, hfiles, hown (by decide)⟩,
    ⟨files', hfiles', hother (by decide) (by decide)⟩⟩

end Written

end Maubot.Bytecode
