import Mathlib.Tactic.Common

namespace Maubot

/-!
# Python exceptions

The exceptions that the modelled `except` clauses tell apart, with the clauses as
predicates.  Whatever else is raised is an `other`.
-/

/-- The class of an exception, the most specific one that some `except` clause names. -/
inductive ExcClass
  /-- `SystemExit`, `KeyboardInterrupt`, `CancelledError`: not an `Exception` -/
  | baseException
  | keyError
  | indexError
  | attributeError
  | typeError
  | runtimeError
  | syntaxError
  | valueError
  | osError
  /-- an `OSError` -/
  | fileNotFoundError
  | importError
  /-- `maubot.lib.zipimport.ZipImportError`, an `ImportError` -/
  | zipImportError
  | badZipFile
  | yamlError
  | serializerError
  /-- the three `MaubotZipImportError`s -/
  | maubotZipMetaError
  | maubotZipPreLoadError
  | maubotZipLoadError
  | idConflictError
  /-- a `MatrixRequestError` -/
  | matrixInvalidToken
  | matrixRequestError
  | matrixConnectionError
  /-- a constraint of the database -/
  | integrityError
  | other (name : String)
  deriving DecidableEq, Repr

/-- An exception and its `str`. -/
structure PyExc where
  cls : ExcClass
  msg : String := ""
  deriving DecidableEq, Repr

namespace PyExc

/-- `except Exception` -/
def isException (e : PyExc) : Bool := e.cls != .baseException

/-- `except MaubotZipImportError` -/
def isMaubotZipImportError (e : PyExc) : Bool :=
  e.cls == .maubotZipMetaError || e.cls == .maubotZipPreLoadError || e.cls == .maubotZipLoadError

/-- `except MatrixRequestError` -/
def isMatrixRequestError (e : PyExc) : Bool :=
  e.cls == .matrixInvalidToken || e.cls == .matrixRequestError

/-- `except (FileNotFoundError, KeyError)` -/
def isMissingFile (e : PyExc) : Bool := e.cls == .fileNotFoundError || e.cls == .keyError

/-- `except (YAMLError, KeyError, IndexError, ValueError)` -/
def isInvalidYaml (e : PyExc) : Bool :=
  e.cls == .yamlError || e.cls == .keyError || e.cls == .indexError || e.cls == .valueError

/-- `except cls`, for a class without modelled subclasses -/
def isA (cls : ExcClass) (e : PyExc) : Bool := e.cls == cls

end PyExc

end Maubot
