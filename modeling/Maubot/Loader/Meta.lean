import Mathlib.Tactic.Common

namespace Maubot

/-!
# Plugin metadata

`PluginMeta` of `loader/meta.py`, without the fields that only the web frontend and the
build command read (`license`, `extra_files`, `dependencies`, `soft_dependencies`,
`config`).  `Version` is the `packaging` library's, reduced to its text.
-/

/-- A parsed version, by its `str`. -/
structure Version where
  str : String
  deriving DecidableEq, Repr

/-- An `ExtensibleEnum`: values other than the two known ones are accepted too. -/
inductive DatabaseType
  | sqlalchemy
  | asyncpg
  | unrecognized (value : String)
  deriving DecidableEq, Repr

structure PluginMeta where
  id           : String
  version      : Version
  modules      : List String
  mainClass    : String
  /-- the lowest version of maubot that the plugin works with -/
  maubot       : Version
  database     : Bool := false
  databaseType : DatabaseType := .sqlalchemy
  webapp       : Bool := false
  deriving DecidableEq, Repr

end Maubot
