import TrafficStats.Config.Path

/-!
# Files by their paths

The file at a path is found by walking the path part by part, from the root directory or,
for a relative path, from the working directory. The walk is refused at the first part
that leads nowhere, so a path that goes on behind a file and a path through a directory
that does not exist are refused for different reasons.
-/

namespace TrafficStats

inductive FileFault where
  | nulInPath
  | absent
  | permissionDenied
  | notDirectory
  | isDirectory
  | nameTooLong
  deriving DecidableEq

def FileFault.message : FileFault → String
  | .nulInPath => "file name contained an unexpected NUL byte"
  | .absent => "No such file or directory (os error 2)"
  | .permissionDenied => "Permission denied (os error 13)"
  | .notDirectory => "Not a directory (os error 20)"
  | .isDirectory => "Is a directory (os error 21)"
  | .nameTooLong => "File name too long (os error 36)"

abbrev FileContent := List UInt8

/-- The bytes that one part of a path may have. -/
def maxPartBytes : Nat := 255

/-- The bytes that a whole path may have. -/
def maxPathBytes : Nat := 4095

/-- The files of a host. A file or a directory stands under the names that lead to it from
the root. Directories need no mention if they lead to something that is mentioned. -/
structure HostFiles where
  workingDirectory : List String
  directories : List (List String)
  files : List (List String × FileContent)

namespace HostFiles

def content? (host : HostFiles) (place : List String) : Option FileContent :=
  (host.files.find? fun file => file.1 = place).map Prod.snd

def isDirectory (host : HostFiles) (place : List String) : Bool :=
  (host.workingDirectory :: host.directories).any place.isPrefixOf ||
    host.files.any fun file => place.isPrefixOf file.1 && place ≠ file.1

/-- Walks on from a directory along the parts that are left of a path. -/
def walk (host : HostFiles) (place : List String) : List String → Except FileFault FileContent
  | [] => .error .isDirectory
  | part :: rest =>
    if part = "" ∨ part = "." then host.walk place rest
    else if part = ".." then host.walk place.dropLast rest
    else if maxPartBytes < part.utf8ByteSize then .error .nameTooLong
    else
      let place := place ++ [part]
      match host.content? place with
      | some content => if rest.isEmpty then .ok content else .error .notDirectory
      | none => if host.isDirectory place then host.walk place rest else .error .absent

def start (host : HostFiles) (path : String) : List String :=
  if path.toList.head? = some '/' then [] else host.workingDirectory

def read (host : HostFiles) (path : String) : Except FileFault FileContent :=
  if path.toList.contains '\x00' then .error .nulInPath
  else if path = "" then .error .absent
  else if maxPathBytes < path.utf8ByteSize then .error .nameTooLong
  else host.walk (host.start path) (pathParts path)

end HostFiles

end TrafficStats
