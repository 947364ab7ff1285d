/-!
# What gets packed

Entries are chosen by name alone.  A file is packed when its name ends in one of the listed
extensions or is one of the listed names, unless it is excluded; exclusion wins.  A directory whose
name is listed as ignored is left out with everything in it.
-/

namespace TreePack

def artifactName : String := "project_context.txt"

def packerScript : String := "packer.py"

structure Rules where
  /-- Endings of the names that are packed, compared as plain text. -/
  extensions : List String
  /-- Names that are packed whatever they end in. -/
  includedFiles : List String
  ignoredDirs : List String
  excludedNames : List String

namespace Rules

def standard : Rules where
  extensions :=
    [".cpp", ".c", ".cc", ".h", ".hpp", ".proto", ".sql", ".yaml", ".yml", ".txt", ".md",
      ".dockerfile"]
  includedFiles := ["CMakeLists.txt", "Dockerfile", "docker-compose.yml"]
  ignoredDirs :=
    [".git", ".idea", "cmake-build-debug", "cmake-build-debug-", "cmake-build-release", "build",
      "out", "bin", "third_party", "vcpkg_installed", "external", ".vscode", ".venv",
      "__pycache__", "logs", "generated"]
  excludedNames := [packerScript, artifactName]

def prunes (rules : Rules) (name : String) : Bool :=
  rules.ignoredDirs.contains name

def accepts (rules : Rules) (name : String) : Bool :=
  !rules.excludedNames.contains name
    && (rules.extensions.any (fun ending => ending.toList.isSuffixOf name.toList)
      || rules.includedFiles.contains name)

end Rules

end TreePack
