import PluginHost.Compliance.Verify
import PluginHost.Disk.Disk
/-!
Which plugins a list of files and directories stands for.
-/

namespace PluginHost.Cli

/-- The extension of plugin sources. -/
def sourceExtension : String := "cs"

def isPluginFile (path : String) : Bool :=
  (Path.extension? path).any fun e => e = sourceExtension || e = moduleExtension

mutual

/-- The plugin files at a path or below it. -/
def pluginFiles (path : String) : Entry → List String
  | .file _ => if isPluginFile path then [path] else []
  | .directory entries => pluginFilesIn path entries

def pluginFilesIn (path : String) : List (String × Entry) → List String
  | [] => []
  | (name, e) :: rest => pluginFiles (Path.join path name) e ++ pluginFilesIn path rest

end

/-- The files of a path, which are itself or those in it; without any, the path is the fault. -/
def collectAt (disk : Disk) (path : String) : Except String (List String) :=
  match disk.lookup path with
  | .ok (.directory entries) => .ok (pluginFilesIn path entries)
  | .ok (.file _) => .ok [path]
  | .error _ => .error path

/-- The files of several paths, in order. -/
def collect (disk : Disk) (paths : List String) : Except String (List String) :=
  (paths.mapM (collectAt disk)).map List.flatten

end PluginHost.Cli
