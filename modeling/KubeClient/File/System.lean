import KubeClient.File.Tree

/-!
# A small system

The directories, files and programs that a small system has.

* `FileTree.programNames` : the programs;
* `FileTree.system` : a tree with them.
-/

namespace KubeClient.FileTree

/-- The directories. -/
def systemDirectories : List String :=
  ["bin", "boot", "dev", "etc", "etc/ssl", "etc/ssl/certs", "home", "lib", "media", "mnt", "opt",
    "proc", "root", "run", "sbin", "srv", "sys", "tmp", "usr", "usr/bin", "usr/lib", "usr/local",
    "usr/local/bin", "usr/local/sbin", "usr/sbin", "usr/share", "var", "var/cache", "var/lib",
    "var/log", "var/run", "var/tmp"]

/-- The files that hold text. -/
def systemTexts : List (String × String) :=
  [("etc/passwd", "root:x:0:0:root:/root:/bin/bash\n"),
    ("etc/group", "root:x:0:\n"),
    ("etc/hostname", "localhost\n"),
    ("etc/hosts", "127.0.0.1\tlocalhost\n"),
    ("etc/resolv.conf", "nameserver 127.0.0.1\n"),
    ("etc/fstab", "# UNCONFIGURED FSTAB FOR BASE SYSTEM\n"),
    ("dev/null", "")]

/-- The programs that scripts use. -/
def programNames : List String :=
  ["[", "base64", "basename", "cat", "chmod", "cp", "cut", "dash", "dirname", "echo", "env", "false",
    "head", "ls", "mkdir", "mv", "od", "printenv", "printf", "pwd", "rm", "rmdir", "seq",
    "sh", "sleep", "sort", "tail", "tee", "test", "touch", "tr", "true", "uniq", "wc"]

/-- The place of a path from the root. -/
def placeFromRoot (path : String) : Place :=
  path.splitOn "/"

/-- A tree with the directories, files and programs. -/
def system : FileTree :=
  ⟨systemDirectories.map (placeFromRoot ·, .directory) ++
    systemTexts.map (fun f => (placeFromRoot f.1, .file (Utf8.encode f.2) false)) ++
    ["bin", "usr/bin"].flatMap fun directory =>
      programNames.map fun name => (placeFromRoot directory ++ [name], .file [] true)⟩

end KubeClient.FileTree
