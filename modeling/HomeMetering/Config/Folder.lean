import HomeMetering.Config.Document

/-!
# Folders

What reading a path gives in a folder that holds some files.
-/

namespace HomeMetering.Config.Folder

/-- The names a path goes through; empty ones and dots stay where they are. -/
def names (path : String) : List String :=
  (path.splitOn "/").filter fun n => n != "" && n != "."

/-- Whether a path can only be a folder. -/
def endsInSlash (path : String) : Bool := path.toList.getLast? == some '/'

/-- Whether a path leads through a folder to something in it. -/
def leadsThrough (path folder : List String) : Bool :=
  folder.isPrefixOf path && folder.length < path.length

/-- The folder that holds files, the last of one path. -/
def ofFiles (files : List (String × List UInt8)) : Folder := fun path =>
  let at? := names path
  let known := files.reverse.map fun (p, bytes) => (names p, bytes)
  if path.isEmpty then .error .notFound
  else match known.lookup at? with
    | some bytes => if endsInSlash path then .error .notADirectory else .ok bytes
    | none =>
      if known.any fun f => leadsThrough at? f.1 then .error .notADirectory
      else if at?.isEmpty || known.any fun f => leadsThrough f.1 at? then .error .isADirectory
      else .error .notFound

end HomeMetering.Config.Folder
