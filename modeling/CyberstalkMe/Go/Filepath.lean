import CyberstalkMe.Go.Strings
import Mathlib.Data.List.DropRight

/-! # File names on Windows

`filepath.Base`, whose result keeps nothing of the directories.
-/
namespace CyberstalkMe.Go.Filepath

def isSeparator (c : Char) : Bool := c = '\\' || c = '/'

/-- The path begins with the volume, where every separator is alike and the case does not matter, and goes
on with a separator if at all. -/
def hasVolume (volume path : List Char) : Bool :=
  decide (volume.length ≤ path.length) &&
    (volume.zip path).all (fun p => if isSeparator p.1 then isSeparator p.2 else p.1.toUpper = p.2.toUpper) &&
    (path.drop volume.length).head?.all isSeparator

/-- The length of a volume with a host and a share, of which the host begins at `start`. -/
def uncLength (start : ℕ) (path : List Char) : ℕ :=
  let host := (path.drop start).takeWhile fun c => !isSeparator c
  let share := (path.drop (start + host.length + 1)).takeWhile fun c => !isSeparator c
  min path.length (start + host.length + 1 + share.length)

def volumeLength (path : List Char) : ℕ :=
  if path[1]? = some ':' then 2
  else if !path.head?.any isSeparator then 0
  else if hasVolume "\\\\.\\UNC".toList path then uncLength 8 path
  else if hasVolume "\\\\.".toList path || hasVolume "\\\\?".toList path || hasVolume "\\??".toList path then
    if path.length = 3 then 3
    else 4 + ((path.drop 4).takeWhile fun c => !isSeparator c).length
  else if path[1]?.any isSeparator then uncLength 2 path
  else 0

/-- The last element of a path. -/
def base (path : List Char) : List Char :=
  if path = [] then ['.']
  else
    let path := path.rdropWhile isSeparator
    let path := (path.drop (volumeLength path)).rtakeWhile fun c => !isSeparator c
    if path = [] then ['\\'] else path

/-- No directory is left of a path. -/
theorem base_separator (path : List Char) : base path = ['\\'] ∨ ∀ c ∈ base path, isSeparator c = false := by
  rw [base]
  dsimp only
  split_ifs
  · exact .inr (by simp [isSeparator])
  · exact .inl rfl
  · refine .inr fun c hc => ?_
    simpa using List.mem_rtakeWhile_imp hc

example : base "C:\\Program Files\\Microsoft VS Code\\Code.exe".toList = "Code.exe".toList ∧
    base "\\\\nas\\tools\\bin\\Tool.exe".toList = "Tool.exe".toList ∧ base "C:\\".toList = ['\\'] := by
  decide +kernel

end CyberstalkMe.Go.Filepath
