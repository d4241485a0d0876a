import Maubot.Loader.Zip
import Maubot.Management.Responses
import Mathlib.Data.List.DropRight
import Mathlib.Data.List.Infix

namespace Maubot

/-!
# Plugin uploads — `management/api/plugin_upload.py`

An uploaded archive is written to a path of its own, and a loader is made for it or moved to
it; an update that fails is rolled back.

* `uploadPath`, `replacementPath` — where the archive is written;
* `uploadNewPlugin`, `uploadReplacementPlugin` — the handlers, from where the archive is
  verified and the loader of its id is looked up.
-/

open Prog Management

namespace ZipLoader

open Zipimport OsPath

variable {B E C Y M : Type}

/-- The configured directory, and `==` of versions: two texts can stand for one version. -/
structure Uploads where
  directory   : Path
  sameVersion : Version → Version → Bool

/-! ### The paths -/

/-- The path of a new plugin -/
def uploadPath (directory : Path) (pid : String) (version : Version) : Path :=
  join directory (pid.toList ++ "-v".toList ++ version.str.toList ++ ".mbp".toList)

/-- The length of what `(-ts[0-9]+)?` matches. -/
def timestampLength (text : List Char) : Nat :=
  if "-ts".toList.isPrefixOf text then
    match (text.drop 3).takeWhile Char.isDigit with
    | []     => 0
    | digits => 3 + digits.length
  else 0

/-- `re.sub(f"{re.escape(version)}(-ts[0-9]+)?", replacement, text)`, for a version text that is
    not empty; `skip` characters still belong to the match before. -/
def subVersion (version replacement : List Char) : Nat → List Char → List Char
  | _, []             => []
  | skip + 1, _ :: cs => subVersion version replacement skip cs
  | 0, c :: cs        =>
    if version.isPrefixOf (c :: cs) then
      let matched := version.length + timestampLength ((c :: cs).drop version.length)
      replacement ++ subVersion version replacement (matched - 1) cs
    else c :: subVersion version replacement 0 cs

/-- The file name of an update; `now` is `int(time() * 1000)`. -/
def replacementFilename (U : Uploads) (old new : Version) (now : Nat) (filename : List Char) :
    List Char :=
  if old.str.toList <:+: filename then
    let replacement :=
      if U.sameVersion old new then new.str.toList ++ "-ts".toList ++ (toString now).toList
      else new.str.toList
    subVersion old.str.toList replacement 0 filename
  else
    filename.rdropWhile (fun c => ".mbp".toList.contains c) ++ "-v".toList ++ new.str.toList ++
      ".mbp".toList

/-- The path of an update -/
def replacementPath (U : Uploads) (old new : Version) (now : Nat) (path : Path) : Path :=
  join (dirname path) (replacementFilename U old new now (basename path))

/-! ### The handlers -/

/-- What else can go wrong: writing the file, removing one, and what the instances of the plugin
    raise when they are stopped and started, also once more after the update failed. -/
structure Accidents where
  write      : Option PyExc := none
  stop       : Option PyExc := none
  start      : Option PyExc := none
  stopAgain  : Option PyExc := none
  startAgain : Option PyExc := none
  trash      : Option PyExc := none

variable (P : Platform B E C Y M) (U : Uploads)

/-- `with open(path, "wb") as p: p.write(content)` -/
def writeFile (path : Path) (content : B) (raised : Option PyExc) : Method B E M Unit := do
  raiseIf raised
  modify fun s => { s with files := Function.update s.files (abspath P.cwd path) (some content) }

/-- `upload_new_plugin` -/
def uploadNewPlugin (content : B) (pid : String) (version : Version) (a : Accidents) :
    Method B E M Response := do
  let path := uploadPath U.directory pid version
  writeFile P path content a.write
  match ← attempt PyExc.isMaubotZipImportError (getLoader P path) with
  | .ok _    => pure Response.created
  | .error e =>
    trash P path a.trash
    pure (Response.pluginImportError e.msg)

/-- `finally`: `m` runs however the body ends. -/
def finallyDo (body m : Method B E M Unit) : Method B E M Unit := do
  let r ← attempt (fun _ => true) body
  m
  outcome r

/-- The first rollback: the new archive could not be loaded. -/
def rollBackReload (plugin : Ref) (oldPath path : Path) (a : Accidents) : Method B E M Unit :=
  finallyDo
    (do
      let _ ← attempt PyExc.isMaubotZipImportError do
        let _ ← reload P plugin (some oldPath)
        raiseIf a.startAgain)
    (trash P path a.trash)

/-- The second rollback: an instance did not start. -/
def rollBackStart (plugin : Ref) (oldPath path : Path) (a : Accidents) : Method B E M Unit :=
  finallyDo
    (do
      let _ ← attempt PyExc.isException do
        raiseIf a.stopAgain
        let _ ← reload P plugin (some oldPath)
        raiseIf a.startAgain)
    (trash P path a.trash)

/-- `upload_replacement_plugin`.  Starting instances loads nothing: `_loaded` is set by then. -/
def uploadReplacementPlugin (plugin : Ref) (content : B) (newVersion : Version) (now : Nat)
    (a : Accidents) : Method B E M Response := do
  let s ← get
  let oldPath ← present (s.loaders.get plugin).path
  let m ← present (s.loaders.get plugin).pluginMeta
  let path := replacementPath U m.version newVersion now oldPath
  writeFile P path content a.write
  raiseIf a.stop
  match ← attempt PyExc.isMaubotZipImportError (reload P plugin (some path)) with
  | .error e =>
    rollBackReload P plugin oldPath path a
    pure (Response.pluginImportError e.msg)
  | .ok _    =>
    match ← attempt PyExc.isException (raiseIf a.start) with
    | .error e =>
      rollBackStart P plugin oldPath path a
      pure (Response.pluginReloadError e.msg)
    | .ok ()   =>
      trash P oldPath a.trash
      pure (Response.updated false)

end ZipLoader

end Maubot
