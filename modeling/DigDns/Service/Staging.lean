import DigDns.OsConfig.Machine
import DigDns.Service.Unit

/-!
# Staging the program

On Linux `install` copies the running binary to a directory that only root can
write to, and lets the unit start the copy.  `stage_service_program` of
`service.rs` checks the directories above, makes those that are missing, puts a
real directory in the last place, and replaces the copy.
-/

namespace DigDns

open Rust Interaction Posix OsConfig

/-! ## Calls -/

/-- The kinds of `io::Error` that the source tells apart or makes. -/
inductive ErrorKind
  | notFound
  | permissionDenied
  | other
deriving DecidableEq

/-- `io::Error`. -/
structure IoError where
  kind : ErrorKind
  message : Str
deriving DecidableEq

/-- `FileType`. -/
inductive FileType
  | file
  | dir
  | symlink
deriving DecidableEq

/-- The `Metadata` that the source reads; `mode` has no type bits. -/
structure Metadata where
  uid : Nat
  mode : Nat
  fileType : FileType
deriving DecidableEq

/-- The calls of the system.  `lstat` is `symlink_metadata`, and `chown` gives an
entry to root. -/
inductive StageCall
  | currentExe
  | lstat (path : Str)
  | pathExists (path : Str)
  | createDir (path : Str)
  | chown (path : Str)
  | setMode (path : Str) (mode : Nat)
  | removeFile (path : Str)
  | copy (source target : Str)
deriving DecidableEq

abbrev StageAnswer : StageCall → Type
  | .currentExe => Except IoError Str
  | .lstat _ => Except IoError Metadata
  | .pathExists _ => Bool
  | .createDir _ => Except IoError Unit
  | .chown _ => Except IoError Unit
  | .setMode _ _ => Except IoError Unit
  | .removeFile _ => Except IoError Unit
  | .copy _ _ => Except IoError Unit

abbrev StageProg := Prog StageAnswer

/-- Make a call. -/
def stageCall (q : StageCall) : StageProg (StageAnswer q) := .ask q .ret

/-! ## Checks -/

/-- The path and its parents, at most so many of them. -/
def ancestorsFrom : Nat → Str → List Str
  | 0, _ => []
  | fuel + 1, path =>
      path :: match parent path with
        | some dir => ancestorsFrom fuel dir
        | none => []

/-- `Path::ancestors`; a parent is shorter than its path. -/
def ancestors (path : Str) : List Str := ancestorsFrom (path.length + 1) path

/-- `{:o}` -/
def fmtOctal (n : Nat) : Str := Nat.toDigits 8 n

/-- `root_owned_not_writable` -/
def rootOwnedNotWritable (uid mode : Nat) : Bool := uid = 0 && mode &&& 0o022 = 0

/-- The refusal of an entry that is not root's alone. -/
def execRefusal (path : Str) (stat : Metadata) : IoError :=
  ⟨.permissionDenied, "dig-dns: refusing to install a root service that execs ".toList ++ path ++
    " — it must be owned by root (uid 0) and not group/world-writable, but it is ".toList ++
    "owned by uid ".toList ++ fmtNat stat.uid ++ " with mode ".toList ++
    fmtOctal (stat.mode &&& 0o7777) ++
    ". Install dig-dns to a root-owned prefix and retry.".toList⟩

/-- `ensure_root_owned_not_writable` -/
def ensureRootOwnedNotWritable (path : Str) : StageProg (Except IoError Unit) :=
  (stageCall (.lstat path)).andThen fun stat =>
    if rootOwnedNotWritable stat.uid stat.mode then return .ok ()
    else return .error (execRefusal path stat)

/-- `prefix_component_safe` -/
def prefixComponentSafe (uid mode : Nat) (isSymlink : Bool) : Bool :=
  !isSymlink && rootOwnedNotWritable uid mode

/-- Whether an entry is a link. -/
def Metadata.isSymlink (stat : Metadata) : Bool := stat.fileType = .symlink

/-- The refusal of a component of the prefix. -/
def prefixRefusal (dir component : Str) (stat : Metadata) : IoError :=
  ⟨.permissionDenied, "dig-dns: refusing to stage a root service under ".toList ++ dir ++
    " — the path component ".toList ++ component ++
    " must be a non-symlink directory owned by root (uid 0) and not group/world-".toList ++
    "writable, but it is owned by uid ".toList ++ fmtNat stat.uid ++ " with mode ".toList ++
    fmtOctal (stat.mode &&& 0o7777) ++ (if stat.isSymlink then " (a symlink)".toList else []) ++
    ". Install dig-dns under a root-owned, root-only-writable prefix and retry.".toList⟩

/-- One round of the loop of `ensure_prefix_root_owned_not_writable`. -/
def judgeComponent (dir component : Str) : Except IoError Metadata → Except IoError Unit
  | .ok stat =>
      if prefixComponentSafe stat.uid stat.mode stat.isSymlink then .ok ()
      else .error (prefixRefusal dir component stat)
  -- A component that does not exist yet is made later.
  | .error e => if e.kind = .notFound then .ok () else .error e

/-- A component is looked at without following a link. -/
def checkComponent (dir component : Str) : StageProg (Except IoError Unit) := do
  return judgeComponent dir component (← stageCall (.lstat component))

/-- `ensure_prefix_root_owned_not_writable` -/
def ensurePrefixRootOwnedNotWritable (dir : Str) : StageProg (Except IoError Unit) :=
  Prog.tryEach (checkComponent dir) (ancestors dir)

/-! ## Directories -/

/-- The paths before the first that exists. -/
def collectMissing : List Str → StageProg (List Str)
  | [] => return []
  | current :: rest => do
      if ← stageCall (.pathExists current) then return []
      else return current :: (← collectMissing rest)

/-- Make a directory that is root's. -/
def createOwned (path : Str) : StageProg (Except IoError Unit) :=
  (stageCall (.createDir path)).andThen fun _ =>
    (stageCall (.chown path)).andThen fun _ => stageCall (.setMode path 0o755)

/-- `create_missing_intermediates` -/
def createMissingIntermediates (dir : Str) : StageProg (Except IoError Unit) := do
  let target := (parent dir).getD dir
  if ← stageCall (.pathExists target) then return .ok ()
  else
    let toCreate ← collectMissing (ancestors target)
    Prog.tryEach createOwned toCreate.reverse

/-- `ensure_real_leaf_dir` -/
def ensureRealLeafDir (dir : Str) : StageProg (Except IoError Unit) := do
  match ← stageCall (.lstat dir) with
  | .ok stat =>
      if stat.fileType = .dir then return .ok ()
      else (stageCall (.removeFile dir)).andThen fun _ => stageCall (.createDir dir)
  | .error e => if e.kind = .notFound then stageCall (.createDir dir) else return .error e

/-! ## Staging -/

/-- The part of `stage_service_program` that readies the directory. -/
def prepareProgramDir : StageProg (Except IoError Unit) :=
  (ensurePrefixRootOwnedNotWritable ((parent linuxProgramDir).getD linuxProgramDir)).andThen
    fun _ => (createMissingIntermediates linuxProgramDir).andThen
    fun _ => (ensureRealLeafDir linuxProgramDir).andThen
    fun _ => (stageCall (.chown linuxProgramDir)).andThen
    fun _ => stageCall (.setMode linuxProgramDir 0o755)

/-- The part that replaces the copy. -/
def replaceProgram (source : Str) : StageProg (Except IoError Str) := do
  -- Unlink what is there, so that the copy follows no link.
  let _ ← stageCall (.removeFile linuxProgramDest)
  (stageCall (.copy source linuxProgramDest)).andThen
    fun _ => (stageCall (.chown linuxProgramDest)).andThen
    fun _ => (stageCall (.setMode linuxProgramDest 0o755)).andThen
    fun _ => (ensureRootOwnedNotWritable linuxProgramDir).andThen
    fun _ => (ensureRootOwnedNotWritable linuxProgramDest).andThen
    fun _ => return .ok linuxProgramDest

/-- `stage_service_program` -/
def stageServiceProgram : StageProg (Except IoError Str) :=
  (stageCall .currentExe).andThen fun source =>
    prepareProgramDir.andThen fun _ => replaceProgram source

/-! ## The disk -/

/-- What a call did to an entry. -/
inductive Action
  | created
  | wrote
  | chowned
  | chmodded
deriving DecidableEq

/-- An entry that a call acted on, and whether its path led to it without a link. -/
structure Touch where
  action : Action
  place : Names
  straight : Bool
deriving DecidableEq

/-- The files in the course of a run, what the run has acted on so far, and
whether it has come to the unlink of the copy. -/
structure Stage where
  files : FileTree Attrs
  touched : List Touch
  unlinking : Bool

/-- The files change, by an action on what a path leads to. -/
def Stage.touch (d : Stage) (action : Action) (follow : Bool) (path : Names)
    (files : FileTree Attrs) : Stage :=
  { d with
    files
    touched := d.touched ++
      [⟨action, (d.files.locate follow path).getD [], d.files.isStraight path⟩] }

/-- The metadata of a node; a symbolic link has mode `0777` and any owner. -/
def MetadataOf : Option (Node Attrs) → Metadata → Prop
  | some (.file attrs _), stat => stat = ⟨attrs.uid, attrs.mode, .file⟩
  | some (.dir attrs), stat => stat = ⟨attrs.uid, attrs.mode, .dir⟩
  | some (.link _), stat => stat.mode = 0o777 ∧ stat.fileType = .symlink
  | none, _ => False

/-- `lstat`.  An error is `NotFound` where an entry is missing, and another one
where a file is in the way; a walk through links may end with any. -/
def LstatAnswers (files : FileTree Attrs) (path : Names) : Except IoError Metadata → Prop
  | .ok stat => ∃ place, files.locate false path = some place ∧ MetadataOf (files place) stat
  | .error e =>
      match files.locate false path with
      | some place => files place = none ∧ e.kind = .notFound
      | none =>
          match (files.firstNonDir [] path).bind files with
          | some (.file _ _) => e.kind ≠ .notFound
          | some (.link _) => True
          | _ => e.kind = .notFound

/-- Give the file at a place these bytes, or make one there. -/
def writeAt (files : FileTree Attrs) (mode : Nat) (bytes : List UInt8) (place : Names) :
    Option (FileTree Attrs) :=
  match files place with
  | some (.file old _) => some (files.set place (some (.file ⟨old.uid, mode⟩ bytes)))
  | none => if place = [] then none else some (files.set place (some (.file ⟨0, mode⟩ bytes)))
  | _ => none

/-- What `copy` writes: the target is truncated before the source is read. -/
def copied (files : FileTree Attrs) (source target : Names) : Option (List UInt8) :=
  if files.locate true source = files.locate true target then (files.read source).map fun _ => []
  else files.read source

/-- The files after a copy of these bytes. -/
def copyTo (files : FileTree Attrs) (mode : Nat) (bytes : List UInt8) (target : Names) :
    Option (FileTree Attrs) :=
  (files.locate true target).bind (writeAt files mode bytes)

/-- A call that changes the files succeeds exactly when it can. -/
def Changes (d : Stage) (action : Action) (follow : Bool) (path : Names)
    (files : Option (FileTree Attrs)) (answer : Except IoError Unit) (d' : Stage) : Prop :=
  match files with
  | some files => answer = .ok () ∧ d' = d.touch action follow path files
  | none => answer ≠ .ok () ∧ d' = d

/-- The call is answered, and does what it does, for a process of root that was
started from the path `exe`. -/
def Works (exe : Str) (d : Stage) : (q : StageCall) → StageAnswer q → Stage → Prop
  | .currentExe, answer, d' => answer = .ok exe ∧ d' = d
  | .lstat path, answer, d' => LstatAnswers d.files (names path) answer ∧ d' = d
  | .pathExists path, answer, d' => answer = d.files.isPresent (names path) ∧ d' = d
  | .createDir path, answer, d' =>
      ∃ mode, Changes d .created false (names path) (d.files.mkdir ⟨0, mode⟩ (names path)) answer d'
  | .chown path, answer, d' =>
      Changes d .chowned true (names path)
        (d.files.setAttrs (fun attrs => { attrs with uid := 0 }) (names path)) answer d'
  | .setMode path mode, answer, d' =>
      Changes d .chmodded true (names path)
        (d.files.setAttrs (fun attrs => { attrs with mode }) (names path)) answer d'
  | .removeFile path, answer, d' =>
      match d.files.removeFile (names path) with
      | some files => answer = .ok () ∧ d' = { d with files }
      | none => answer ≠ .ok () ∧ d' = d
  | .copy source target, answer, d' =>
      ∃ mode, Changes d .wrote true (names target)
        ((copied d.files (names source) (names target)).bind
          fun bytes => copyTo d.files mode bytes (names target)) answer d'

/-- The call fails for an outside reason: it does nothing, but a copy may have
been made in part. -/
def Breaks (d : Stage) : (q : StageCall) → StageAnswer q → Stage → Prop
  | .currentExe, answer, d' => answer.isOk = false ∧ d' = d
  | .lstat _, answer, d' => (∃ e, answer = .error e ∧ e.kind ≠ .notFound) ∧ d' = d
  | .pathExists _, answer, d' => answer = false ∧ d' = d
  | .createDir _, answer, d' => answer ≠ .ok () ∧ d' = d
  | .chown _, answer, d' => answer ≠ .ok () ∧ d' = d
  | .setMode _ _, answer, d' => answer ≠ .ok () ∧ d' = d
  | .removeFile _, answer, d' => answer ≠ .ok () ∧ d' = d
  | .copy _ target, answer, d' =>
      answer ≠ .ok () ∧ (d' = d ∨ ∃ mode bytes files,
        copyTo d.files mode bytes (names target) = some files ∧
          d' = d.touch .wrote true (names target) files)

/-- Whether a call comes at or after the unlink of the copy. -/
def Stage.isLate (d : Stage) (q : StageCall) : Bool :=
  d.unlinking || q = .removeFile linuxProgramDest

/-- A call works, or breaks where it may: before the unlink of the copy, or from
then on. -/
def StageAnswers (exe : Str) (mayBreak : Bool → Prop) (d : Stage) (q : StageCall)
    (answer : StageAnswer q) (d' : Stage) : Prop :=
  ∃ d₁, (Works exe d q answer d₁ ∨ mayBreak (d.isLate q) ∧ Breaks d q answer d₁) ∧
    d' = { d₁ with unlinking := d.isLate q }

/-- The disk that a run starts with. -/
structure Disk where
  files : FileTree Attrs
  isTree : files.IsTree

/-- The start of a run. -/
def Disk.start (disk : Disk) : Stage := ⟨disk.files, [], false⟩

end DigDns
