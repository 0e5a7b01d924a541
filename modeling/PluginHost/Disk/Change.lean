import PluginHost.Disk.Disk
/-!
What has to be done to turn one disk into another.

A program works on a copy of the parts of a disk that concern it. The changes between the copy as it
was made and the copy as it was left are what remains to be done on the disk itself.
-/

namespace PluginHost

/-- One step towards another disk, at a place. -/
inductive Change where
  | remove (place : List String)
  | makeDirectory (place : List String)
  | write (place : List String) (bytes : List UInt8)
deriving DecidableEq, Inhabited

namespace Entry

mutual

/-- All that two copies of an entry hold. Where they differ the first one counts. -/
def merge : Entry → Entry → Entry
  | directory new, directory old => directory (mergeAll new old)
  | e, _ => e

def mergeAll : List (String × Entry) → List (String × Entry) → List (String × Entry)
  | [], old => old
  | (name, e) :: rest, old =>
    mergeAll rest (Assoc.insert name (((Assoc.get? old name).map e.merge).getD e) old)

end

/-- Adds an entry where names lead to. Directories on the way are made. -/
def graft (new : Entry) : List String → Entry → Entry
  | [], e => new.merge e
  | name :: rest, directory entries =>
    let child := (Assoc.get? entries name).getD (directory [])
    directory (Assoc.insert name (graft new rest child) entries)
  | _ :: _, file bytes => file bytes

mutual

/-- The changes that make an entry out of what was at its place before. -/
def changes (place : List String) (before : Option Entry) : Entry → List Change
  | file bytes =>
    match before with
    | some (file old) => if old = bytes then [] else [.write place bytes]
    | some (directory _) => [.remove place, .write place bytes]
    | none => [.write place bytes]
  | directory entries =>
    match before with
    | some (directory old) =>
      let gone := old.filter fun e => (Assoc.get? entries e.1).isNone
      gone.map (fun e => .remove (place ++ [e.1])) ++ changesIn place old entries
    | some (file _) => .remove place :: .makeDirectory place :: changesIn place [] entries
    | none => .makeDirectory place :: changesIn place [] entries

def changesIn (place : List String) (before : List (String × Entry)) :
    List (String × Entry) → List Change
  | [] => []
  | (name, e) :: rest =>
    e.changes (place ++ [name]) (Assoc.get? before name) ++ changesIn place before rest

end

end Entry

namespace Disk

/-- The disk with a copy of an entry added. -/
def graft (d : Disk) (place : List String) (e : Entry) : Disk := d.modify (e.graft place)

/-- The changes that make the second disk out of the first. -/
def changes (before after : Disk) : List Change :=
  (Entry.directory after.root).changes [] (some (.directory before.root))

end Disk

end PluginHost
