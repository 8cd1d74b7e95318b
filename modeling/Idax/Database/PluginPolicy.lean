import Idax.Error
import Idax.Database.Wildcard
import Idax.Library.Listing

/-!
This module contains `configure_user_plugin_policy` of `database_lifecycle.cpp` as it is outside of
Windows. Every operation on the filesystem may fail.
-/

namespace Idax
namespace Database

namespace Text

def ofString (s : String) : Text :=
  s.toList.map fun c => UInt8.ofNat c.toNat

def display (text : Text) : String :=
  String.ofList (text.map fun b => Char.ofNat b.toNat)

/--
`operator/` of `std::filesystem::path`, for a right side that is no absolute path.
-/
def append (path name : Text) : Text :=
  if path.isEmpty || path.getLast? = some 0x2f then path ++ name else path ++ 0x2f :: name

end Text

inductive Operation where
  | tempDirectoryPath
  | createDirectories (path : Text)
  | exists (path : Text)
  | isDirectory (path : Text)
  | openDirectory (path : Text)
  | nextEntry (path : Text) (index : Nat)
  | removeAll (path : Text)
  | createSymlink (path : Text)
  | copy (path : Text)
  deriving DecidableEq, Repr

inductive FileType where
  | regular
  | directory
  deriving DecidableEq, Repr

/--
A tree by its paths. `failure` gives the message of an operation that fails.
-/
structure FileSystem where
  status : Text → Option FileType
  entries : Text → List Text
  nodup_entries : ∀ path, (entries path).Nodup
  tempDirectory : Text
  failure : Operation → Option String

namespace FileSystem

variable (fs : FileSystem)

def isDirectory (path : Text) : Except String Bool :=
  match fs.failure (.isDirectory path) with
  | some message => .error message
  | none =>
    match fs.status path with
    | none => .error "No such file or directory"
    | some type => .ok (decide (type = .directory))

/--
The iterator of a directory that cannot be opened is at its end.
-/
def openDirectory (path : Text) : List Text × Option String :=
  match fs.failure (.openDirectory path) with
  | some message => ([], some message)
  | none => (fs.entries path, none)

end FileSystem

def pluginsName : Text :=
  Text.ofString "plugins"

inductive Place where
  | user (name : Text)
  | plugin (name : Text)
  deriving DecidableEq, Repr

def Place.path (sandboxUser : Text) : Place → Text
  | .user name => sandboxUser.append name
  | .plugin name => (sandboxUser.append pluginsName).append name

inductive Mirrored where
  | link (source : Text) (directory : Bool)
  | copied (source : Text) (directory : Bool)
  deriving DecidableEq, Repr

def Mirrored.source : Mirrored → Text
  | .link source _ => source
  | .copied source _ => source

abbrev Mirror := Place → Option Mirrored

def Mirror.empty : Mirror :=
  fun _ => none

def Mirror.set (mirror : Mirror) (place : Place) (mirrored : Option Mirrored) : Mirror :=
  fun p => if p = place then mirrored else mirror p

structure World where
  idausr : Option Text
  home : Option Text

/--
How the function is left: with a status, or by the exception of an iterator.
-/
inductive Ending where
  | returned (status : Status)
  | thrown (message : String)

structure Outcome where
  ending : Ending
  world : World
  mirror : Mirror

section Policy

variable (fs : FileSystem) (now : Nat) (setenvFails : Bool)

def sandboxUser : Text :=
  let tmpBase :=
    if (fs.failure .tempDirectoryPath).isSome || fs.tempDirectory.isEmpty then
      Text.ofString "/tmp"
    else
      fs.tempDirectory
  (tmpBase.append (Text.ofString ("idax_idausr_" ++ toString now))).append (Text.ofString "user")

def setEnvironmentVariable (value : Text) (world : World) : Status × World :=
  if setenvFails then
    (.error (.sdk "qsetenv failed" ("IDAUSR=" ++ value.display)), world)
  else
    (ok, { world with idausr := some value })

def finish (sandboxUser : Text) (world : World) : Listing.End Mirror Error String → Outcome
  | .refused e mirror => { ending := .returned (.error e), world, mirror }
  | .interrupted message mirror => { ending := .thrown message, world, mirror }
  | .finished mirror =>
    let (status, world) := setEnvironmentVariable setenvFails sandboxUser world
    { ending := .returned status, world, mirror }

end Policy

end Database
end Idax
