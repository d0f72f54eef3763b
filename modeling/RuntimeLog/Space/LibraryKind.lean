import RuntimeLog.Text.Split

/-!
# Kinds of libraries

The name of a library tells what sort of code it holds.  Pseudo-libraries stand
for code which belongs to no file.
-/

namespace RuntimeLog

/-- What sort of code a library holds. -/
inductive LibraryKind where
  /-- Traces which were compiled at run time. -/
  | jit
  /-- Interpreter level functions. -/
  | virtual
  /-- Native symbols which a profile declares. -/
  | native
  | kernel
  /-- Code which the kernel maps into every process. -/
  | vdso
  /-- A library of the system, by its file name. -/
  | system (file : String)
  /-- Any other file, by its name. -/
  | user (file : String)
deriving DecidableEq, Repr

namespace LibraryKind

/-- The name of the pseudo-library of compiled traces. -/
def jitName : String := "<JIT>"

/-- The name of the pseudo-library of interpreter level functions. -/
def virtualName : String := "<virtual>"

/-- The name of the pseudo-library of declared native symbols. -/
def nativeName : String := "<native>"

/-- The names of code which the kernel maps into every process. -/
def vdsoNames : List String :=
  ["[vdso]", "[vdso32]", "[vdsox32]", "[vsyscall]"]

/-- How the names of kernel code start. -/
def kernelStarts : List String :=
  ["[kernel", "[guest.kernel"]

/-- How the file names of system libraries start. -/
def systemStarts : List String :=
  ["libc.", "libc-", "libm.", "libm-", "libpthread", "ld-linux", "ld64.so", "libdl.", "libdl-",
    "librt.", "librt-"]

/-- The part of a path behind its last slash. -/
def fileName (path : String) : String :=
  String.ofList (path.toList.reverse.takeWhile (· != '/')).reverse

/-- The kind of a library, by its path or the name of its mapping. -/
def ofPath (path : String) : LibraryKind :=
  if path = jitName then jit
  else if path = virtualName then virtual
  else if path = nativeName then native
  else if vdsoNames.contains path then vdso
  else if kernelStarts.any (Text.startsWith path) then kernel
  else if systemStarts.any (Text.startsWith (fileName path)) then system (fileName path)
  else user (fileName path)

/-- Whether code is neither part of the runtime nor of the program: kernel code
and system libraries. -/
def isExternal : LibraryKind → Bool
  | kernel | vdso | system _ => true
  | jit | virtual | native | user _ => false

end LibraryKind
end RuntimeLog
