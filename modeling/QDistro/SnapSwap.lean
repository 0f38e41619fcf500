/-
# Restoring a snapshot

`qdistro_snap_swap`: a state directory is replaced by a writable clone of a snapshot, and the
displaced state is kept beside it.  A journal next to the state says how far a swap has come, so
that `recover` can finish or abort one that was interrupted.

A machine stops after a number of effects that is given beforehand: every statement over that
number is a statement about a crash at any point.  What a copy or a removal leaves when it is cut
short is a tree like any other.
-/
import QDistro.EffectRules
import QDistro.PyText

namespace SnapSwap

open EffectRules

abbrev Path := List Char

/-- A directory tree, or a file with a text. -/
inductive Node (τ : Type)
  | dir (t : τ)
  | file (text : List Char)
  deriving DecidableEq

abbrev Fs (τ : Type) := Path → Option (Node τ)

structure Machine (τ : Type) where
  fs : Fs τ
  /-- The effects that still reach the disk. -/
  left : ℕ

inductive Stop
  | crash
  /-- `SnapSwapError`, or an `OSError` of a call that had no effect. -/
  | failed
  deriving DecidableEq

abbrev SwapM (τ α : Type) := Act (Machine τ) Stop α

variable {τ : Type}

def effect (f : Fs τ → Fs τ) : SwapM τ Unit := fun m =>
  match m.left with
  | 0 => (.error .crash, m)
  | n + 1 => (.ok (), ⟨f m.fs, n⟩)

/-- Read the disk. -/
def look {α : Type} (f : Fs τ → α) : SwapM τ α := fun m => (.ok (f m.fs), m)

/-- `os.path.lexists` -/
def lexists (path : Path) : SwapM τ Bool := look fun fs => (fs path).isSome

/-- `os.rename`.  A directory at the target is in the way. -/
def rename (source target : Path) : SwapM τ Unit := do
  match ← look (fun fs => (fs source, fs target)) with
  | (none, _) => throw .failed
  | (some _, some (.dir _)) => throw .failed
  | (some node, _) =>
    effect (fun fs => Function.update (Function.update fs target (some node)) source none)

/-- `_rmtree`, which may stop half way. -/
def rmtree (part : τ) (path : Path) : SwapM τ Unit := do
  effect fun fs => Function.update fs path (some (.dir part))
  effect fun fs => Function.update fs path none

/-! ## Names -/

/-- What `os.path.abspath` makes of a state path: a directory and a name in it. -/
structure StatePath where
  parent : List Char
  base : List Char
  base_ne : base ≠ []
  base_slash : '/' ∉ base

def StatePath.text (p : StatePath) : Path := p.parent ++ '/' :: p.base

/-- `_marker_path` -/
def markerPath (p : StatePath) : Path := p.text ++ ".swap-pending.toml".toList

/-- The temporary name under which a marker is written. -/
def markerTemp (p : StatePath) : Path := markerPath p ++ ".tmp".toList

/-- `str(n)` -/
def decimal (n : ℕ) : List Char := n.repr.toList

/-- `_sibling_temp`, with the clock in milliseconds. -/
def siblingTemp (p : StatePath) (ms pid : ℕ) : Path :=
  p.parent ++ '/' :: '.' :: (p.base ++ (".snap-swap-".toList ++ decimal ms ++ '-' :: decimal pid))

/-- The search for a name that is not taken: `base`, then `base-1`, `base-2`, … -/
def firstFree (fs : Fs τ) (base : Path) : ℕ → ℕ → Option Path
  | 0, _ => none
  | fuel + 1, n =>
    let cand := if n = 0 then base else base ++ '-' :: decimal n
    if (fs cand).isSome then firstFree fs base fuel (n + 1) else some cand

/-- A search that does not end is one the machine stops in. -/
def freeName (fuel : ℕ) (base : Path) : SwapM τ Path := do
  match ← look fun fs => firstFree fs base fuel 0 with
  | some path => pure path
  | none => throw .crash

/-- The names that `_rejected_path` tries. -/
def rejectedBase (p : StatePath) (now : ℕ) : Path := p.text ++ "-rejected-".toList ++ decimal now

/-- The names that `_free_rejected` tries. -/
def recoveredBase (p : StatePath) : Path := p.text ++ "-rejected-recovered".toList

/-! ## The journal -/

variable (u : UnicodeDb)

/-- `f"{k} = {str(v)!r}"` -/
def markerLine (key value : List Char) : List Char :=
  key ++ " = ".toList ++ (PyText.pyRepr u (String.ofList value)).toList

/-- The text of a marker. -/
def markerText (fields : List (List Char × List Char)) : List Char :=
  fields.flatMap fun f => markerLine u f.1 f.2 ++ ['\n']

/-- Drop the quotes around a value. -/
def unquote (v : List Char) : List Char :=
  match v with
  | q :: rest =>
    if rest ≠ [] ∧ rest.getLast? = some q ∧ (q = PyText.apostrophe ∨ q = '"') then rest.dropLast
    else v
  | [] => v

/-- One line of `_read_marker`. -/
def readLine (line : List Char) : Option (List Char × List Char) :=
  let ln := PyText.strip u line
  if '=' ∈ ln then
    some (PyText.strip u (ln.takeWhile (· ≠ '=')),
      unquote (PyText.strip u ((ln.dropWhile (· ≠ '=')).drop 1)))
  else none

def parseMarker (text : List Char) : List (List Char × List Char) :=
  (text.splitOnP fun c => c = '\n' || c = '\r').filterMap (readLine u)

/-- `marker.get(key, "")`: a key that comes again counts. -/
def field (fields : List (List Char × List Char)) (key : String) : List Char :=
  ((fields.reverse.find? fun f => f.1 = key.toList).map Prod.snd).getD []

/-- `_write_marker` -/
def writeMarker (p : StatePath) (fields : List (List Char × List Char)) : SwapM τ Unit := do
  effect fun fs => Function.update fs (markerTemp p) (some (.file []))
  effect fun fs => Function.update fs (markerTemp p) (some (.file (markerText u fields)))
  rename (markerTemp p) (markerPath p)

/-- `_read_marker` -/
def readMarker (p : StatePath) : SwapM τ (Option (List (List Char × List Char))) :=
  look fun fs =>
    match fs (markerPath p) with
    | some (.file text) => some (parseMarker u text)
    | _ => none

/-- `_clear_marker` -/
def clearMarker (p : StatePath) : SwapM τ Unit :=
  effect fun fs => Function.update fs (markerPath p) none

def phaseMaterialized : List Char := "materialized".toList
def phaseExchanged : List Char := "exchanged".toList
def phaseMoved : List Char := "moved".toList

/-! ## Recovery -/

inductive Outcome
  | none
  | aborted
  | completed
  | cleaned
  deriving DecidableEq

/-- `if temp and os.path.lexists(temp): _rmtree(temp)` -/
def dropClone (part : τ) (temp : Path) : SwapM τ Unit := do
  let there ← lexists temp
  if temp ≠ [] ∧ there = true then rmtree part temp else pure ()

/-- The exchanged phase: what is at `temp` is set aside. -/
def setAside (fuel : ℕ) (p : StatePath) (temp rejected : Path) : SwapM τ Unit := do
  let there ← lexists temp
  if temp ≠ [] ∧ there = true then do
    let taken ← lexists rejected
    if rejected = [] ∨ taken = true then do
      let dest ← freeName fuel (recoveredBase p)
      rename temp dest
    else rename temp rejected
  else pure ()

/-- The moved phase. -/
def finishMove (part : τ) (p : StatePath) (temp rejected : Path) : SwapM τ Outcome := do
  let present ← lexists p.text
  let cloned ← lexists temp
  let displaced ← lexists rejected
  if present = true then do
    dropClone part temp
    clearMarker p
    pure .aborted
  else if temp ≠ [] ∧ cloned = true then do
    rename temp p.text
    clearMarker p
    pure .completed
  else if rejected ≠ [] ∧ displaced = true then do
    rename rejected p.text
    clearMarker p
    pure .completed
  else throw .failed

/-- `recover` on a journal. -/
def recoverFrom (part : τ) (fuel : ℕ) (p : StatePath) (phase temp rejected : List Char) :
    SwapM τ Outcome :=
  if phase = phaseMaterialized then do
    dropClone part temp
    clearMarker p
    pure .aborted
  else if phase = phaseExchanged then do
    setAside fuel p temp rejected
    clearMarker p
    pure .cleaned
  else if phase = phaseMoved then finishMove part p temp rejected
  else throw .failed

/-- `recover` -/
def recover (part : τ) (fuel : ℕ) (p : StatePath) : SwapM τ Outcome := do
  match ← readMarker u p with
  | none => pure .none
  | some fields =>
    recoverFrom part fuel p (field fields "phase") (field fields "temp") (field fields "rejected")

/-! ## The swap -/

/-- How `renameat2` with `RENAME_EXCHANGE` answers. -/
inductive Exchange
  | done
  | unsupported
  | error
  deriving DecidableEq

/-- What a restore meets. -/
structure Env (τ : Type) where
  now : ℕ
  ms : ℕ
  pid : ℕ
  /-- The tree of the snapshot. -/
  clone : τ
  /-- What a copy or a removal leaves when it is cut short. -/
  part : τ
  copied : Bool
  verified : Bool
  /-- `allow_exchange and exchange_supported()` -/
  allowExchange : Bool
  exchange : Exchange
  fuel : ℕ

/-- `_materialize_clone` and `_verify_clone` -/
def materialize (env : Env τ) (temp : Path) : SwapM τ Unit := do
  effect fun fs => Function.update fs temp (some (.dir env.part))
  if env.copied = false then throw .failed
  else do
    effect fun fs => Function.update fs temp (some (.dir env.clone))
    if env.verified = false then do
      rmtree env.part temp
      throw .failed
    else pure ()

/-- Steps 1 and 2 of `restore`. -/
def prepare (env : Env τ) (temp : Path) : SwapM τ Unit := do
  dropClone env.part temp
  materialize env temp

/-- `_renameat2_exchange`, both paths being there. -/
def exchangePaths (old new : Path) : SwapM τ Unit :=
  effect fun fs => Function.update (Function.update fs new (fs old)) old (fs new)

/-- The two renames. -/
def twoRename (p : StatePath) (temp rejected : Path) : SwapM τ Unit := do
  rename p.text rejected
  rename temp p.text
  clearMarker p

/-- The journal of a swap in one of its phases. -/
def journal (phase temp rejected snapshot : List Char) : List (List Char × List Char) :=
  [("phase".toList, phase), ("temp".toList, temp), ("rejected".toList, rejected),
    ("snapshot".toList, snapshot)]

/-- Steps 3 and 4 of `restore`. -/
def swap (env : Env τ) (p : StatePath) (snapshot temp rejected : Path) : SwapM τ Unit := do
  writeMarker u p (journal phaseMaterialized temp rejected snapshot)
  if env.allowExchange = true then do
    writeMarker u p (journal phaseExchanged temp rejected snapshot)
    match env.exchange with
    | .error => throw .failed
    | .unsupported => do
      writeMarker u p (journal phaseMoved temp rejected snapshot)
      twoRename p temp rejected
    | .done => do
      exchangePaths temp p.text
      rename temp rejected
      clearMarker p
  else do
    writeMarker u p (journal phaseMoved temp rejected snapshot)
    twoRename p temp rejected

/-- `restore`, of a snapshot that is a directory. -/
def restore (env : Env τ) (p : StatePath) (snapshot : Path) : SwapM τ Unit := do
  let _ ← recover u env.part env.fuel p
  let present ← lexists p.text
  if present = false then throw .failed
  else do
    let temp := siblingTemp p env.ms env.pid
    let rejected ← freeName env.fuel (rejectedBase p env.now)
    prepare env temp
    swap u env p snapshot temp rejected

end SnapSwap
