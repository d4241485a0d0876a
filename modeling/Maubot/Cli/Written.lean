import Maubot.Cli.Build
import Maubot.Loader.Bytecode

namespace Maubot.Build

/-!
# What `mbc build` writes — `cli/commands/build.py`

The names that `write_plugin` writes are in `Cli.Build`; here are the files behind them, the
archive with its bytes, and what the server's importer makes of them.

* `Entry`, `archiveOf` — a file as it is written, and the archive of a list of them;
* `decodeName_encodeName` — every name is read back;
* `import_built` — the server runs the code that was built.
-/

open Bytes ZipFormat Zipimport ZipDirectory Bytecode

/-! ### Names -/

/-- The flags and the bytes of a name: ASCII if that is enough, else UTF-8 -/
def encodeName (name : Text) : UInt16 × Bytes :=
  if name.all fun c => c.toNat < 128 then (0, name.map fun c => UInt8.ofNat c.toNat)
  else (0x800, (String.ofList name).toByteArray.data.toList)

/-- A name that was encoded is decoded. -/
theorem decodeName_encodeName (name : Text) :
    decodeName (encodeName name).1.toNat (encodeName name).2 = .ok name := by
  unfold encodeName
  by_cases hascii : name.all (fun c => c.toNat < 128) = true
  · rw [if_pos hascii]
    rw [List.all_eq_true] at hascii
    have hbyte : ∀ c ∈ name, (UInt8.ofNat c.toNat).toNat = c.toNat := by
      intro c hc
      have hlt : c.toNat < 128 := of_decide_eq_true (hascii c hc)
      exact UInt8.toNat_ofNat_of_lt' (Nat.lt_trans hlt (by decide))
    have hall : (name.map fun c => UInt8.ofNat c.toNat).all (· < 128) = true := by
      rw [List.all_map, List.all_eq_true]
      intro c hc
      have hlt : c.toNat < 128 := of_decide_eq_true (hascii c hc)
      rw [Function.comp, decide_eq_true_eq, UInt8.lt_iff_toNat_lt, hbyte c hc]
      exact hlt
    have hback : (name.map fun c => UInt8.ofNat c.toNat).map (fun b => Char.ofNat b.toNat) =
        name := by
      rw [List.map_map]
      refine (List.map_congr_left fun c hc => ?_).trans (List.map_id name)
      rw [Function.comp, hbyte c hc, Char.ofNat_toNat]
      rfl
    rw [decodeName, if_neg (by rw [UInt16.toNat_zero, Nat.zero_and]; decide), if_pos hall, hback]
  · have hdecode : (ByteArray.mk (String.ofList name).toByteArray.data.toList.toArray).utf8Decode? =
        some name.toArray := by
      rw [Array.toArray_toList, String.toByteArray_ofList]
      exact List.utf8Decode?_utf8Encode
    have hflag : (0x800 : UInt16).toNat &&& 0x800 ≠ 0 := by decide
    rw [if_neg hascii, decodeName, if_pos hflag, hdecode]

/-! ### Archives -/

/-- A file as `zip.write` writes it, without compression -/
structure Entry where
  name     : Text
  data     : Bytes
  time     : LocalTime
  crc      : UInt32
  external : UInt32
  name_lt  : (encodeName name).2.length < 65536
  data_lt  : data.length < 4294967296
  inDos    : time.InDos

def Entry.member (e : Entry) : Member where
  header  := {
    version  := 20
    flags    := (encodeName e.name).1
    compress := 0
    time     := UInt16.ofNat (dosTime e.time)
    date     := UInt16.ofNat (dosDate e.time)
    crc      := e.crc
    dataSize := UInt32.ofNat e.data.length
    fileSize := UInt32.ofNat e.data.length
    name     := (encodeName e.name).2
    extra    := []
    name_lt  := e.name_lt
    extra_lt := length_nil_lt }
  data    := e.data
  central := {
    versionMade   := 788
    versionNeeded := 20
    flags         := (encodeName e.name).1
    compress      := 0
    time          := UInt16.ofNat (dosTime e.time)
    date          := UInt16.ofNat (dosDate e.time)
    crc           := e.crc
    dataSize      := UInt32.ofNat e.data.length
    fileSize      := UInt32.ofNat e.data.length
    disk          := 0
    internal      := 0
    external      := e.external
    offset        := 0
    name          := (encodeName e.name).2
    extra         := []
    comment       := []
    name_lt       := e.name_lt
    extra_lt      := length_nil_lt
    comment_lt    := length_nil_lt }
  size_eq := UInt32.toNat_ofNat_of_lt' e.data_lt

/-- A member has the name of its entry, -/
@[simp] theorem Entry.nameOf_member (e : Entry) : nameOf e.member.central = some e.name :=
  nameOf_eq_some (decodeName_encodeName e.name)

/-- and its data. -/
@[simp] theorem Entry.unpacked_member (e : Entry) (decompress : Bytes → Except PyExc Bytes) :
    unpacked decompress e.member = .ok e.data := rfl

/-- An archive that needs none of the extensions for large files -/
structure Fits (entries : List Entry) : Prop where
  body      : (body (entries.map Entry.member)).length < 2147483648
  directory : (ZipFormat.directory (centrals 0 (entries.map Entry.member))).length < 2147483648
  count     : entries.length < 65536

/-- `zipfile.ZipFile(output, "w")`, when all has been written -/
def archiveOf (entries : List Entry) (h : Fits entries) : Archive where
  members      := entries.map Entry.member
  diskEntries  := UInt16.ofNat entries.length
  entries      := UInt16.ofNat entries.length
  body_lt      := Nat.lt_trans h.body (by decide)
  directory_lt := Nat.lt_trans h.directory (by decide)
  comment_lt   := length_nil_lt

section Archives

variable {entries : List Entry} {name : Text} {data : Bytes}

/-- What is written is quiet. -/
theorem quiet_archiveOf (h : Fits entries) : (archiveOf entries h).Quiet := .inl rfl

/-- Its names decode. -/
theorem named_archiveOf (h : Fits entries) :
    ∀ m ∈ (archiveOf entries h).members, (nameOf m.central).isSome := by
  intro m hm
  obtain ⟨e, -, rfl⟩ := List.mem_map.mp hm
  rw [Entry.nameOf_member]
  rfl

/-- The last of the files that have a name -/
theorem exists_last (hname : name ∈ entries.map Entry.name) :
    ∃ pre e post, entries = pre ++ e :: post ∧ e.name = name ∧ ∀ e' ∈ post, e'.name ≠ name := by
  induction entries with
  | nil => cases hname
  | cons e entries ih =>
    by_cases hrest : name ∈ entries.map Entry.name
    · obtain ⟨pre, e', post, rfl, he', hpost⟩ := ih hrest
      exact ⟨e :: pre, e', post, rfl, he', hpost⟩
    · have he : name = e.name := (List.mem_cons.mp hname).resolve_right hrest
      exact ⟨[], e, entries, rfl, he.symm, fun e' he' hn => hrest (List.mem_map.mpr ⟨e', he', hn⟩)⟩

/-- Where all the files of a name have the same data, it is in the archive. -/
theorem exists_lastMember (h : Fits entries) (hname : name ∈ entries.map Entry.name)
    (hdata : ∀ e ∈ entries, e.name = name → e.data = data) :
    ∃ m, LastMember (archiveOf entries h) name m ∧
      ∀ decompress, unpacked decompress m = .ok data := by
  obtain ⟨pre, e, post, hentries, he, hpost⟩ := exists_last hname
  refine ⟨e.member, ⟨⟨pre.map Entry.member, post.map Entry.member, ?_, ?_⟩, ?_⟩, ?_⟩
  · have hmembers : (archiveOf entries h).members = entries.map Entry.member := rfl
    rw [hmembers, hentries, List.map_append, List.map_cons]
  · intro m hm
    obtain ⟨e', he', rfl⟩ := List.mem_map.mp hm
    rw [Entry.nameOf_member]
    exact fun hn => hpost e' he' (Option.some.inj hn)
  · rw [Entry.nameOf_member, he]
  · intro decompress
    rw [Entry.unpacked_member, hdata e (by rw [hentries]; simp) he]

/-- A name that was not written is not in it. -/
theorem absent_archiveOf (h : Fits entries) (hname : name ∉ entries.map Entry.name) :
    ∀ m ∈ (archiveOf entries h).members, nameOf m.central ≠ some name := by
  intro m hm
  obtain ⟨e, he, rfl⟩ := List.mem_map.mp hm
  rw [Entry.nameOf_member]
  exact fun hn => hname (List.mem_map.mpr ⟨e, he, Option.some.inj hn⟩)

end Archives

/-! ### Building and importing -/

namespace Project

variable (p : Project)

/-- The paths that `write_plugin` writes for a module -/
def modulePaths (module : Text) : List Text :=
  if p.isfile (module ++ ".py".toList) then [module ++ ".py".toList]
  else if p.isdir module then
    if p.isfile (module ++ "/__init__.py".toList) then p.walk module else []
  else []

/-- The paths that `write_plugin` writes, in its order -/
def paths (modules extraFiles : List Text) : List Text :=
  modules.flatMap p.modulePaths ++ extraFiles.flatMap p.glob

/-- What `zip.write` reads: nothing for a directory -/
def content (disk : Text → Bytes) (path : Text) : Bytes := if p.isdir path then [] else disk path

/-- The files that `write_plugin` writes, with their names in the archive -/
def written (disk : Text → Bytes) (metaDump : Bytes) (modules extraFiles : List Text) :
    List (Text × Bytes) :=
  ("maubot.yaml".toList, metaDump) ::
    (p.paths modules extraFiles).map fun path => (p.write path, p.content disk path)

/-- The names of a module are where its paths are written. -/
theorem names_eq (module : Text) : p.names module = (p.modulePaths module).map p.write := by
  unfold names writeModule modulePaths zipdir
  by_cases hfile : p.isfile (module ++ ".py".toList) = true
  · rw [if_pos hfile, if_pos hfile]
    rfl
  rw [if_neg hfile, if_neg hfile]
  by_cases hdir : p.isdir module = true
  · rw [if_pos hdir, if_pos hdir]
    by_cases hinit : p.isfile (module ++ "/__init__.py".toList) = true
    · rw [if_pos hinit, if_pos hinit]
    · rw [if_neg hinit, if_neg hinit]
      rfl
  · rw [if_neg hdir, if_neg hdir]
    rfl

/-- The names are those of `writePlugin`. -/
theorem names_written (disk : Text → Bytes) (metaDump : Bytes) (modules extraFiles : List Text) :
    (p.written disk metaDump modules extraFiles).map Prod.fst =
      (p.writePlugin modules extraFiles).1 := by
  rw [written, writePlugin, List.map_cons, List.map_map, paths, List.map_append]
  have hmodules : (modules.flatMap p.modulePaths).map
      (Prod.fst ∘ fun path => (p.write path, p.content disk path)) =
        modules.flatMap p.names := by
    rw [List.map_flatMap]
    exact List.flatMap_congr fun module _ => (p.names_eq module).symm
  rw [hmodules, List.map_flatMap]
  rfl

/-- A name that is searched is in the archive if a file of the project was written under it. -/
theorem mem_writePlugin_iff {modules extraFiles : List Text} {path suffix : Text}
    (hsuffix : suffix ∈ searched) : path ++ suffix ∈ (p.writePlugin modules extraFiles).1 ↔
      ∃ file ∈ p.paths modules extraFiles, p.write file = path ++ suffix := by
  rw [← p.names_written (fun _ => []) [], written, List.map_cons, List.map_map, List.mem_cons,
    List.mem_map]
  refine or_iff_right fun hyaml => ?_
  -- the metadata have another ending
  have hlast : ∀ suffix ∈ searched, suffix.getLast? = some 'y' ∨ suffix.getLast? = some 'c' := by
    decide
  have hend : (path ++ suffix).getLast? = some 'l' := by rw [hyaml]; decide
  rcases hlast suffix hsuffix with h | h <;>
    · rw [List.getLast?_append, h, Option.some_or, Option.some.injEq] at hend
      exact absurd hend (by decide)

/-- **Which file supplies a module**: one of the project that is written under a name that is
    searched for the module, and is not the module's own; if it is byte code, it must be in time. -/
theorem supplied_iff {E B C : Type} (R : Reader B E C) (b : B) (entry : Text → E)
    {modules extraFiles : List Text} {module : Text} :
    p.Supplied R b (toc entry (p.writePlugin modules extraFiles).1) module ↔
      ∃ x ∈ zipSearchorder, ∃ file ∈ p.paths modules extraFiles,
        p.write file = getModulePath module ++ x.1 ∧ p.write file ≠ arcname (p.ownFile module) ∧
        (x.2.1 = true → R.unmarshalCode b (entry (p.write file))
          ((toc entry (p.writePlugin modules extraFiles).1).lookup (p.write file).dropLast) ≠
            .ok none) := by
  constructor
  · rintro ⟨x, hx, hown, e, he, hcode⟩
    have hmem : getModulePath module ++ x.1 ∈ (p.writePlugin modules extraFiles).1 := by
      by_contra hno
      rw [lookup_toc_eq_none hno] at he
      cases he
    obtain ⟨file, hfile, hwrite⟩ :=
      (p.mem_writePlugin_iff (List.mem_map_of_mem hx)).mp hmem
    rw [lookup_toc hmem, Option.some.injEq] at he
    subst he
    exact ⟨x, hx, file, hfile, hwrite, hwrite ▸ hown, hwrite ▸ hcode⟩
  · rintro ⟨x, hx, file, hfile, hwrite, hown, hcode⟩
    have hmem := (p.mem_writePlugin_iff (List.mem_map_of_mem hx)).mpr ⟨file, hfile, hwrite⟩
    exact ⟨x, hx, hwrite ▸ hown, entry _, lookup_toc hmem, hwrite ▸ hcode⟩

/-- The names that the importer tries before the file of a module -/
def shadowing (module : Text) : List Text :=
  if p.isfile (module ++ ".py".toList) then
    ["/__init__.pyc".toList, "/__init__.py".toList, ".pyc".toList]
  else ["/__init__.pyc".toList]

section Importing

variable {p} {disk : Text → Bytes} {metaDump : Bytes} {modules extraFiles : List Text}
  {module archive : Text} {entries : List Entry}

/-- The file of a module is a source. -/
theorem getLast?_ownFile (module : Text) : (p.ownFile module).getLast? = some 'y' := by
  unfold ownFile
  split <;> rw [List.getLast?_append_of_ne_nil _ (by decide)] <;> decide

/-- Under the name of a module's file there is its text. -/
theorem content_of_write {path : Text} (h : p.write path = p.ownFile module) :
    p.content disk path = disk path := by
  rw [content, if_neg]
  intro hdir
  have hlast : (p.write path).getLast? = some '/' := by
    rw [write, if_pos hdir, List.getLast?_concat]
  rw [h, getLast?_ownFile] at hlast
  exact absurd hlast (by decide)

/-- A module's entries have the text of its file, if all that is written there has. -/
theorem data_of_written (hes : entries.map (fun e => (e.name, e.data)) =
      p.written disk metaDump modules extraFiles)
    (hsame : ∀ path ∈ p.paths modules extraFiles, p.write path = p.ownFile module →
      disk path = disk (p.ownFile module)) :
    ∀ e ∈ entries, e.name = p.ownFile module → e.data = disk (p.ownFile module) := by
  intro e he hname
  have hmem : (e.name, e.data) ∈ p.written disk metaDump modules extraFiles := by
    rw [← hes]
    exact List.mem_map_of_mem he
  rcases List.mem_cons.mp hmem with heq | hmem
  · -- the metadata have another name
    have hlast := getLast?_ownFile (p := p) module
    have hyaml : e.name = "maubot.yaml".toList := congrArg Prod.fst heq
    rw [← hname, hyaml] at hlast
    exact absurd hlast (by decide)
  · obtain ⟨path, hpath, heq⟩ := List.mem_map.mp hmem
    have hwrite : p.write path = p.ownFile module := (congrArg Prod.fst heq).trans hname
    have hdata : p.content disk path = e.data := congrArg Prod.snd heq
    rw [← hdata, content_of_write hwrite, hsame path hpath hwrite]

/-- **What is built is run.**  A plugin was built without a warning.  The server's importer, which
    reads the bytes of the archive, gives for every module with a plain name the code of its file
    as it was on the disk, if no other file was written under a name that is tried before. -/
theorem import_built {C : Type} (I : Interpreter C) (repr : Path → String) (hfits : Fits entries)
    (hes : entries.map (fun e => (e.name, e.data)) = p.written disk metaDump modules extraFiles)
    (hquiet : (p.writePlugin modules extraFiles).2 = []) (hmodule : module ∈ modules)
    (hplain : p.Plain module)
    (hsame : ∀ path ∈ p.paths modules extraFiles, p.write path = p.ownFile module →
      disk path = disk (p.ownFile module))
    (hshadow : ∀ suffix ∈ p.shadowing module,
      module ++ suffix ∉ (p.writePlugin modules extraFiles).1) :
    ∃ files, Zipimport.readDirectory (reader I repr archive) archive
        (some (archiveOf entries hfits).encode) = .ok files ∧
      getModuleCode (reader I repr archive) (some (archiveOf entries hfits).encode) files module =
        (I.compile (unixLines (disk (p.ownFile module))) (pathJoin [archive, p.ownFile module])).map
          fun code => (code, !p.isfile (module ++ ".py".toList)) := by
  -- the archive has the names that `write_plugin` wrote
  have hnames : entries.map Entry.name = (p.writePlugin modules extraFiles).1 := by
    rw [← p.names_written disk metaDump, ← hes, List.map_map]
    rfl
  have hmem : p.ownFile module ∈ entries.map Entry.name := by
    obtain ⟨names, hwrite, hin⟩ := mem_names_of_quiet hquiet hmodule
    rw [hnames]
    exact hin _ (ownFile_mem hplain hwrite)
  obtain ⟨m, hlast, hunpacked⟩ := exists_lastMember hfits hmem (data_of_written hes hsame)
  obtain ⟨i, hlookup, hdata⟩ :=
    @read_last repr archive (archiveOf entries hfits) I.decompress _ _ hlast
  rw [hunpacked] at hdata
  have hpath : getModulePath module = module := by
    rw [getModulePath, UrlPath.split_of_not_mem '.' hplain.1, List.getLast?_singleton,
      Option.getD_some]
  -- nothing in the archive stands before the module's own file
  have hskip : ∀ suffix ∈ p.shadowing module, ∀ x : Path × Bool × Bool, x.1 = suffix →
      PassedOver I repr archive module (archiveOf entries hfits).encode
        (table archive (archiveOf entries hfits).front.length (archiveOf entries hfits).headers [])
        x := by
    rintro suffix hsuffix x rfl
    refine .inl (lookup_of_absent _ (absent_archiveOf hfits ?_))
    rw [hnames, hpath]
    exact hshadow _ hsuffix
  refine ⟨_, readDirectory_encode repr _ (quiet_archiveOf hfits) (named_archiveOf hfits), ?_⟩
  rw [getModuleCode, zipSearchorder]
  unfold shadowing at hskip
  unfold ownFile at hlookup hdata ⊢
  -- a module is searched third, after the two kinds of package, a package second
  by_cases hfile : p.isfile (module ++ ".py".toList) = true
  · rw [if_pos hfile] at hskip hlookup hdata ⊢
    rw [searchCode_of_passedOver I repr _ (hskip _ (by simp) _ rfl),
      searchCode_of_passedOver I repr _ (hskip _ (by simp) _ rfl),
      searchCode_of_passedOver I repr _ (hskip _ (by simp) _ rfl)]
    rw [← hpath] at hlookup hdata
    rw [searchCode_source I repr hlookup hdata, hfile, hpath]
    rfl
  · rw [if_neg hfile] at hskip hlookup hdata ⊢
    rw [searchCode_of_passedOver I repr _ (hskip _ (by simp) _ rfl)]
    rw [← hpath] at hlookup hdata
    rw [searchCode_source I repr hlookup hdata, hpath, Bool.eq_false_iff.mpr hfile]
    rfl

/-- A file of midnight, the first of January 1980 -/
def sampleEntry (name : Text) (data : Bytes)
    (h : (encodeName name).2.length < 65536 ∧ data.length < 4294967296) : Entry where
  name     := name
  data     := data
  time     := ⟨1980, 1, 1, 0, 0, 0⟩
  crc      := 0
  external := 0
  name_lt  := h.1
  data_lt  := h.2
  inDos    := ⟨by decide, by decide, by decide, by decide, by decide, by decide, by decide⟩

/-- The metadata, and a module of one line -/
def sampleEntries : List Entry :=
  [sampleEntry "maubot.yaml".toList [] (by decide),
    sampleEntry "bot.py".toList [49, 13, 10] (by decide)]

/-- The module of the sample is imported. -/
theorem import_built_single :
    ∃ files, Zipimport.readDirectory (reader samplePython String.ofList "/bot.mbp".toList)
        "/bot.mbp".toList (some (archiveOf sampleEntries ⟨by decide, by decide, by decide⟩).encode) = .ok files ∧
      getModuleCode (reader samplePython String.ofList "/bot.mbp".toList)
        (some (archiveOf sampleEntries ⟨by decide, by decide, by decide⟩).encode) files
        "bot".toList = .ok ([49, 10], false) :=
  @import_built (single "bot.py".toList) (fun _ => [49, 13, 10]) [] ["bot".toList] [] _ _ _ _
    samplePython String.ofList
    ⟨by decide, by decide, by decide⟩ rfl (by decide) List.mem_cons_self ⟨by decide, by decide⟩
    (fun _ _ _ => rfl) (by decide)

end Importing

end Project

end Maubot.Build
