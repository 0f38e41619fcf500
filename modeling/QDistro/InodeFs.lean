/-
# A file system of inodes, and system calls that may fail

A file system is a table of inodes; a directory maps names to inodes, so that an open directory is
the number of its inode and stays the same when the directory is renamed.  A system call takes its
next choice from a script: it fails with an error and without an effect, or it does what the file
system allows.  Two things are recorded: the calls that failed, and what was done to the entries of
directories.

Calls are computations in the sense of `EffectRules`; the rules at the end say what each call can
do, as triples with an arbitrary precondition.
-/
import QDistro.EffectRules
import QDistro.PyDict

namespace InodeFs

open EffectRules

/-! ## Inodes -/

inductive Errno
  | enoent
  | eexist
  | eloop
  | enotdir
  | eisdir
  | enotempty
  | eopnotsupp
  | einval
  | eio
  deriving DecidableEq

inductive Inode
  | file (bytes : List UInt8)
  | dir (entries : PyDict String ℕ)
  | symlink
  /-- A device, a socket or a pipe. -/
  | other
  deriving DecidableEq

/-- The inodes by their numbers, and the next free number. -/
structure Fs where
  node : ℕ → Option Inode
  next : ℕ

namespace Fs

/-- The inode under a name in a directory. -/
def entry (fs : Fs) (d : ℕ) (name : String) : Option ℕ :=
  match fs.node d with
  | some (.dir es) => es.get? name
  | _ => none

/-- No inode has a number that is still free, and no entry leads to one. -/
structure WellFormed (fs : Fs) : Prop where
  free : ∀ i, fs.next ≤ i → fs.node i = none
  closed : ∀ d name j, fs.entry d name = some j → j < fs.next

/-- No directory is inside itself. -/
def Ranked (fs : Fs) : Prop :=
  ∃ rank : ℕ → ℕ, ∀ d name j es, fs.entry d name = some j → fs.node j = some (.dir es) →
    rank d < rank j

/-- Replace an inode. -/
def set (fs : Fs) (i : ℕ) (n : Inode) : Fs := { fs with node := Function.update fs.node i (some n) }

/-- A new inode. -/
def alloc (fs : Fs) (n : Inode) : Fs :=
  { node := Function.update fs.node fs.next (some n), next := fs.next + 1 }

/-- The bytes of a file. -/
def bytes (fs : Fs) (i : ℕ) : List UInt8 :=
  match fs.node i with
  | some (.file bs) => bs
  | _ => []

end Fs

/-! ## Calls -/

/-- What the environment chooses for a call: an error, and a number that a call may use (how much
a read or a write moves, a random name). -/
structure Choice where
  fault : Option Errno := none
  number : ℕ := 0

/-- What was done to an entry of a directory. -/
inductive Effect
  | removed (d : ℕ) (name : String)
  | replaced (d : ℕ) (name : String)
  /-- The removal of an entry that was there has failed. -/
  | stuck (d : ℕ) (name : String)
  deriving DecidableEq

/-- A call that failed: its place, the error, and whether it was to remove an entry that was
there. -/
structure Fault (κ : Type) where
  site : κ
  error : Errno
  stuck : Bool

/-- The file system, the choices to come, the calls that failed, and the effects, newest first. -/
structure World (κ : Type) where
  fs : Fs
  script : List Choice
  failed : List (Fault κ)
  effects : List Effect

variable {κ α : Type}

/-- A computation with system calls. -/
abbrev Sys (κ : Type) (α : Type) : Type := Act (World κ) Errno α

/-- A call at a place of the program: what it does to a file system, given the number of its
choice, and what is recorded of it when it fails. -/
def call (site : κ) (stuck : Fs → List Effect)
    (effect : ℕ → Fs → Except Errno (α × Fs × List Effect)) : Sys κ α := fun w =>
  let c := w.script.headD {}
  let failure (e : Errno) : Except Errno α × World κ :=
    (.error e, ⟨w.fs, w.script.tail, ⟨site, e, stuck w.fs ≠ []⟩ :: w.failed, stuck w.fs ++ w.effects⟩)
  match c.fault with
  | some e => failure e
  | none =>
    match effect c.number w.fs with
    | .error e => failure e
    | .ok (a, fs, es) => (.ok a, ⟨fs, w.script.tail, w.failed, es ++ w.effects⟩)

/-- A call that changes nothing. -/
def look (site : κ) (effect : ℕ → Fs → Except Errno α) : Sys κ α :=
  call site (fun _ => []) fun n fs => (effect n fs).map fun a => (a, fs, [])

/-- `fstat`, `fsync`, `fchown`, `close` -/
def plain (site : κ) : Sys κ Unit := look site fun _ _ => .ok ()

/-- `os.open(path, O_RDONLY | O_DIRECTORY)`, where the path leads to an inode. -/
def openRoot (site : κ) (i : ℕ) : Sys κ Unit :=
  look site fun _ fs =>
    match fs.node i with
    | some (.dir _) => .ok ()
    | _ => .error .enotdir

/-- A random number. -/
def urandom (site : κ) : Sys κ ℕ := look site fun n _ => .ok n

/-- `os.listdir(d)` -/
def listDir (site : κ) (d : ℕ) : Sys κ (List String) :=
  look site fun _ fs =>
    match fs.node d with
    | some (.dir es) => .ok es.keys
    | _ => .error .enotdir

/-- `os.lstat(name, dir_fd=d)` -/
def lstatAt (site : κ) (d : ℕ) (name : String) : Sys κ Inode :=
  look site fun _ fs =>
    match (fs.entry d name).bind fs.node with
    | some n => .ok n
    | none => .error .enoent

/-- `os.open(name, O_RDONLY | O_DIRECTORY | O_NOFOLLOW, dir_fd=d)` -/
def openDirAt (site : κ) (d : ℕ) (name : String) : Sys κ ℕ :=
  look site fun _ fs =>
    match fs.entry d name with
    | none => .error .enoent
    | some i =>
      match fs.node i with
      | some (.dir _) => .ok i
      | some .symlink => .error .eloop
      | _ => .error .enotdir

/-- `os.open(name, O_RDONLY | O_NOFOLLOW, dir_fd=d)` -/
def openAt (site : κ) (d : ℕ) (name : String) : Sys κ ℕ :=
  look site fun _ fs =>
    match fs.entry d name with
    | none => .error .enoent
    | some i => if fs.node i = some .symlink then .error .eloop else .ok i

/-- `os.fstat(i)` -/
def fstat (site : κ) (i : ℕ) : Sys κ Inode :=
  look site fun _ fs =>
    match fs.node i with
    | some n => .ok n
    | none => .error .enoent

/-- How much of `n` bytes a read or a write moves: all of them, or at least one. -/
def moved (number n : ℕ) : ℕ := if number = 0 ∨ n ≤ number then n else number

/-- `os.read(i, size)` at an offset. -/
def readAt (site : κ) (i : ℕ) (offset size : ℕ) : Sys κ (List UInt8) :=
  look site fun n fs =>
    let rest := ((fs.bytes i).drop offset).take size
    .ok (rest.take (moved n rest.length))

/-- `os.write(i, data)` at the end of a file. -/
def write (site : κ) (i : ℕ) (data : List UInt8) : Sys κ ℕ :=
  call site (fun _ => []) fun n fs =>
    let k := moved n data.length
    .ok (k, fs.set i (.file (fs.bytes i ++ data.take k)), [])

/-- A new inode under a name that is free: `mkdir`, or `open` with `O_CREAT | O_EXCL`. -/
def addAt (site : κ) (d : ℕ) (name : String) (n : Inode) : Sys κ ℕ :=
  call site (fun _ => []) fun _ fs =>
    match fs.node d with
    | some (.dir es) =>
      if (es.get? name).isSome then .error .eexist
      else .ok (fs.next, (fs.alloc n).set d (.dir (es.insert name fs.next)), [])
    | _ => .error .enotdir

/-- `os.open(".", O_TMPFILE, dir_fd=d)`: an inode without a name. -/
def tmpFile (site : κ) (d : ℕ) : Sys κ ℕ :=
  call site (fun _ => []) fun _ fs =>
    match fs.node d with
    | some (.dir _) => .ok (fs.next, fs.alloc (.file []), [])
    | _ => .error .enotdir

/-- `os.link` of an open inode to a name. -/
def linkAt (site : κ) (i d : ℕ) (name : String) : Sys κ Unit :=
  call site (fun _ => []) fun _ fs =>
    match fs.node d with
    | some (.dir es) =>
      if (es.get? name).isSome then .error .eexist
      else .ok ((), fs.set d (.dir (es.insert name i)), [])
    | _ => .error .enotdir

/-- Whether `rename` may put an inode in the place of another. -/
def mayReplace (fs : Fs) (i j : ℕ) : Except Errno Unit :=
  match fs.node i, fs.node j with
  | some (.dir _), some (.dir es) => if es.keys = [] then .ok () else .error .enotempty
  | some (.dir _), _ => .error .enotdir
  | _, some (.dir _) => .error .eisdir
  | _, _ => .ok ()

/-- `os.rename(src, dst)` within a directory. -/
def renameAt (site : κ) (d : ℕ) (src dst : String) : Sys κ Unit :=
  call site (fun _ => []) fun _ fs =>
    match fs.node d with
    | some (.dir es) =>
      match es.get? src with
      | none => .error .enoent
      | some i =>
        match es.get? dst with
        | none => .ok ((), fs.set d (.dir ((es.erase src).insert dst i)), [])
        | some j =>
          match mayReplace fs i j with
          | .error e => .error e
          | .ok () =>
            .ok ((), fs.set d (.dir ((es.erase src).insert dst i)), [.replaced d dst])
    | _ => .error .enotdir

/-- The record of a removal that fails. -/
def stuckAt (d : ℕ) (name : String) (fs : Fs) : List Effect :=
  if (fs.entry d name).isSome then [.stuck d name] else []

/-- `os.unlink(name, dir_fd=d)` -/
def unlinkAt (site : κ) (d : ℕ) (name : String) : Sys κ Unit :=
  call site (stuckAt d name) fun _ fs =>
    match fs.node d with
    | some (.dir es) =>
      match es.get? name with
      | none => .error .enoent
      | some i =>
        match fs.node i with
        | some (.dir _) => .error .eisdir
        | _ => .ok ((), fs.set d (.dir (es.erase name)), [.removed d name])
    | _ => .error .enotdir

/-- `os.rmdir(name, dir_fd=d)` -/
def rmdirAt (site : κ) (d : ℕ) (name : String) : Sys κ Unit :=
  call site (stuckAt d name) fun _ fs =>
    match fs.node d with
    | some (.dir es) =>
      match es.get? name with
      | none => .error .enoent
      | some i =>
        match fs.node i with
        | some (.dir inner) =>
          if inner.keys = [] then .ok ((), fs.set d (.dir (es.erase name)), [.removed d name])
          else .error .enotempty
        | _ => .error .enotdir
    | _ => .error .enotdir

/-! ## What calls can do -/

/-- The part of the world that a call which only looks leaves alone. -/
def World.kept (w : World κ) : Fs × List Effect := (w.fs, w.effects)

/-- A computation that changes no inode and no entry. -/
abbrev Quiet {ε : Type} (x : Act (World κ) ε α) : Prop := Preserves World.kept x

theorem quiet_look (site : κ) (effect : ℕ → Fs → Except Errno α) : Quiet (look site effect) := by
  intro w
  unfold look call
  dsimp only
  split
  · rfl
  · split
    · rfl
    · next a fs es heq =>
      cases heff : effect (w.script.headD {}).number w.fs with
      | error e =>
        rw [heff] at heq
        cases heq
      | ok b =>
        rw [heff] at heq
        cases heq
        rfl

/-- A computation that changes nothing keeps what speaks of the file system and the effects. -/
theorem Quiet.rule {ε : Type} {x : Act (World κ) ε α} {P : World κ → Prop} (hx : Quiet x)
    (hP : ∀ w w', P w → w'.fs = w.fs → w'.effects = w.effects → P w') :
    Triple P x (fun _ => P) (fun _ => P) := by
  intro w hw
  have hkept := hx w
  have hend : P (x w).2 := hP w _ hw (congrArg Prod.fst hkept) (congrArg Prod.snd hkept)
  rcases hres : x w with ⟨r, t⟩
  rw [hres] at hend
  cases r with
  | ok a => exact hend
  | error e => exact hend

/-- **Call rule.**  A call that fails leaves the file system as it was. -/
theorem call_rule {site : κ} {stuck : Fs → List Effect}
    {effect : ℕ → Fs → Except Errno (α × Fs × List Effect)} {P : World κ → Prop}
    {Q : α → World κ → Prop} {E : Errno → World κ → Prop}
    (hfail : ∀ w w' e, P w → w'.fs = w.fs → w'.failed = ⟨site, e, stuck w.fs ≠ []⟩ :: w.failed →
      w'.effects = stuck w.fs ++ w.effects → E e w')
    (hok : ∀ w w' n a es, P w → effect n w.fs = .ok (a, w'.fs, es) → w'.failed = w.failed →
      w'.effects = es ++ w.effects → Q a w') :
    Triple P (call site stuck effect) Q E := by
  intro w hw
  unfold call
  dsimp only
  split
  · exact hfail w _ _ hw rfl rfl rfl
  · split
    · exact hfail w _ _ hw rfl rfl rfl
    · next a fs es heq => exact hok w _ _ a es hw heq rfl rfl

/-- What a call must leave when it fails without a trace in the effects. -/
def Fails (site : κ) (P : World κ → Prop) (E : Errno → World κ → Prop) : Prop :=
  ∀ w w' e, P w → w'.fs = w.fs → w'.failed = ⟨site, e, false⟩ :: w.failed →
    w'.effects = w.effects → E e w'

theorem ok_effect {a b : α} {fs fs' : Fs} {es es' : List Effect}
    (h : (Except.ok (a, fs, es) : Except Errno (α × Fs × List Effect)) = .ok (b, fs', es')) :
    a = b ∧ fs' = fs ∧ es = es' := by
  cases h
  exact ⟨rfl, rfl, rfl⟩

/-- A call that only looks answers from the file system. -/
theorem look_rule {site : κ} {effect : ℕ → Fs → Except Errno α} {P : World κ → Prop}
    {Q : α → World κ → Prop} {E : Errno → World κ → Prop}
    (hfail : Fails site P E)
    (hok : ∀ w w' n a, P w → effect n w.fs = .ok a → w'.fs = w.fs → w'.failed = w.failed →
      w'.effects = w.effects → Q a w') :
    Triple P (look site effect) Q E := by
  refine call_rule hfail ?_
  intro w w' n a es hw heff hf he
  cases hres : effect n w.fs with
  | error e =>
    rw [hres] at heff
    cases heff
  | ok b =>
    rw [hres] at heff
    obtain ⟨rfl, hfs, rfl⟩ := ok_effect heff
    exact hok w w' n b hw hres hfs hf he

section Rules

variable {site : κ} {d : ℕ} {name : String} {P : World κ → Prop} {E : Errno → World κ → Prop}

theorem addAt_rule {n : Inode} {Q : ℕ → World κ → Prop} (hfail : Fails site P E)
    (hok : ∀ w w' es, P w → w.fs.node d = some (.dir es) → es.get? name = none →
      w'.fs = (w.fs.alloc n).set d (.dir (es.insert name w.fs.next)) → w'.failed = w.failed →
      w'.effects = w.effects → Q w.fs.next w') :
    Triple P (addAt site d name n) Q E := by
  refine call_rule hfail ?_
  intro w w' k a es' hw heff hf he
  split at heff
  · next es hdir =>
    split at heff
    · cases heff
    · next hfree =>
      obtain ⟨rfl, hfs, rfl⟩ := ok_effect heff
      exact hok w w' es hw hdir (by simpa using hfree) hfs hf he
  · cases heff

theorem tmpFile_rule {Q : ℕ → World κ → Prop} (hfail : Fails site P E)
    (hok : ∀ w w', P w → w'.fs = w.fs.alloc (.file []) → w'.failed = w.failed →
      w'.effects = w.effects → Q w.fs.next w') :
    Triple P (tmpFile site d) Q E := by
  refine call_rule hfail ?_
  intro w w' k a es' hw heff hf he
  split at heff
  · obtain ⟨rfl, hfs, rfl⟩ := ok_effect heff
    exact hok w w' hw hfs hf he
  · cases heff

theorem write_rule {i : ℕ} {data : List UInt8} {Q : ℕ → World κ → Prop} (hfail : Fails site P E)
    (hok : ∀ w w' k, P w → (0 < data.length → 0 < k) → k ≤ data.length →
      w'.fs = w.fs.set i (.file (w.fs.bytes i ++ data.take k)) → w'.failed = w.failed →
      w'.effects = w.effects → Q k w') :
    Triple P (write site i data) Q E := by
  refine call_rule hfail ?_
  intro w w' n a es' hw heff hf he
  obtain ⟨rfl, hfs, rfl⟩ := ok_effect heff
  refine hok w w' _ hw ?_ ?_ hfs hf he
  · intro hpos
    unfold moved
    split <;> omega
  · unfold moved
    split <;> omega

variable {Q : Unit → World κ → Prop}

theorem linkAt_rule {i : ℕ} (hfail : Fails site P E)
    (hok : ∀ w w' es, P w → w.fs.node d = some (.dir es) → es.get? name = none →
      w'.fs = w.fs.set d (.dir (es.insert name i)) → w'.failed = w.failed →
      w'.effects = w.effects → Q () w') :
    Triple P (linkAt site i d name) Q E := by
  refine call_rule hfail ?_
  intro w w' k a es' hw heff hf he
  split at heff
  · next es hdir =>
    split at heff
    · cases heff
    · next hfree =>
      obtain ⟨rfl, hfs, rfl⟩ := ok_effect heff
      exact hok w w' es hw hdir (by simpa using hfree) hfs hf he
  · cases heff

/-- A rename replaces what is under the new name. -/
theorem renameAt_rule {src dst : String} (hfail : Fails site P E)
    (hok : ∀ w w' es i, P w → w.fs.node d = some (.dir es) → es.get? src = some i →
      w'.fs = w.fs.set d (.dir ((es.erase src).insert dst i)) → w'.failed = w.failed →
      w'.effects = (if (es.get? dst).isSome then [.replaced d dst] else []) ++ w.effects →
      Q () w') :
    Triple P (renameAt site d src dst) Q E := by
  refine call_rule hfail ?_
  intro w w' k a es' hw heff hf he
  split at heff
  · next es hdir =>
    split at heff
    · cases heff
    · next i hsrc =>
      split at heff
      · next hdst =>
        obtain ⟨rfl, hfs, rfl⟩ := ok_effect heff
        exact hok w w' es i hw hdir hsrc hfs hf (by simpa [hdst] using he)
      · next j hdst =>
        split at heff
        · cases heff
        · obtain ⟨rfl, hfs, rfl⟩ := ok_effect heff
          exact hok w w' es i hw hdir hsrc hfs hf (by simpa [hdst] using he)
  · cases heff

theorem stuckAt_ne_nil (d : ℕ) (name : String) (fs : Fs) :
    decide (stuckAt d name fs ≠ []) = (fs.entry d name).isSome := by
  unfold stuckAt
  cases fs.entry d name <;> rfl

section Removal

variable
    (hfail : ∀ w w' e, P w → w'.fs = w.fs →
      w'.failed = ⟨site, e, (w.fs.entry d name).isSome⟩ :: w.failed →
      w'.effects = stuckAt d name w.fs ++ w.effects → E e w')
    (hok : ∀ w w' es i, P w → w.fs.node d = some (.dir es) → es.get? name = some i →
      w'.fs = w.fs.set d (.dir (es.erase name)) → w'.failed = w.failed →
      w'.effects = .removed d name :: w.effects → Q () w')
include hfail hok

/-- A call that removes an entry, or fails. -/
theorem removal_rule {effect : ℕ → Fs → Except Errno (Unit × Fs × List Effect)}
    (h : ∀ n fs fs' r, effect n fs = .ok ((), fs', r) → ∃ es i, fs.node d = some (.dir es) ∧
      es.get? name = some i ∧ fs' = fs.set d (.dir (es.erase name)) ∧ r = [.removed d name]) :
    Triple P (call site (stuckAt d name) effect) Q E := by
  refine call_rule
    (fun w w' e hw hfs hf he => hfail w w' e hw hfs (by rw [hf, stuckAt_ne_nil]) he) ?_
  intro w w' k a r hw heff hf he
  obtain ⟨es, i, hdir, hname, hfs, rfl⟩ := h k w.fs w'.fs r heff
  exact hok w w' es i hw hdir hname hfs hf he

theorem unlinkAt_rule : Triple P (unlinkAt site d name) Q E := by
  refine removal_rule hfail hok fun n fs fs' r heff => ?_
  split at heff
  · next es hdir =>
    split at heff
    · cases heff
    · next i hname =>
      split at heff
      · cases heff
      · obtain ⟨-, hfs, rfl⟩ := ok_effect heff
        exact ⟨es, i, hdir, hname, hfs, rfl⟩
  · cases heff

theorem rmdirAt_rule : Triple P (rmdirAt site d name) Q E := by
  refine removal_rule hfail hok fun n fs fs' r heff => ?_
  split at heff
  · next es hdir =>
    split at heff
    · cases heff
    · next i hname =>
      split at heff
      · split at heff
        · obtain ⟨-, hfs, rfl⟩ := ok_effect heff
          exact ⟨es, i, hdir, hname, hfs, rfl⟩
        · cases heff
      · cases heff
  · cases heff

end Removal

end Rules

/-! ## Entries of a changed file system -/

namespace Fs

variable {fs : Fs} {i d : ℕ}

@[simp] theorem node_set_self (fs : Fs) (i : ℕ) (n : Inode) : (fs.set i n).node i = some n :=
  Function.update_self ..

theorem node_set_of_ne {j : ℕ} (h : j ≠ i) (n : Inode) : (fs.set i n).node j = fs.node j :=
  Function.update_of_ne h ..

theorem node_alloc_of_ne {j : ℕ} (h : j ≠ fs.next) (n : Inode) : (fs.alloc n).node j = fs.node j :=
  Function.update_of_ne h ..

@[simp] theorem node_alloc_self (fs : Fs) (n : Inode) : (fs.alloc n).node fs.next = some n :=
  Function.update_self ..

@[simp] theorem next_alloc (fs : Fs) (n : Inode) : (fs.alloc n).next = fs.next + 1 := rfl

theorem entry_of_node {es : PyDict String ℕ} (h : fs.node d = some (.dir es)) (name : String) :
    fs.entry d name = es.get? name := by
  rw [entry, h]

@[simp] theorem entry_set_dir (fs : Fs) (d : ℕ) (es : PyDict String ℕ) (name : String) :
    (fs.set d (.dir es)).entry d name = es.get? name :=
  entry_of_node (node_set_self ..) name

theorem node_of_entry {name : String} {j : ℕ} (h : fs.entry d name = some j) :
    ∃ es, fs.node d = some (.dir es) := by
  unfold entry at h
  split at h
  · next es hes => exact ⟨es, hes⟩
  · cases h

theorem WellFormed.lt_next (h : fs.WellFormed) {n : Inode} (hn : fs.node i = some n) :
    i < fs.next := by
  by_contra hge
  rw [h.free i (by omega)] at hn
  cases hn

theorem entry_congr {fs' : Fs} (h : fs'.node d = fs.node d) (name : String) :
    fs'.entry d name = fs.entry d name := by
  rw [entry, entry, h]

end Fs

/-! ## Paths, and what is kept -/

/-- Every entry and every file that was there is there as it was. -/
def Unchanged (fs fs' : Fs) : Prop :=
  (∀ d name j, fs.entry d name = some j → fs'.entry d name = some j) ∧
    ∀ i n, fs.node i = some n → fs'.node i = some n ∨
      ∃ es es', n = .dir es ∧ fs'.node i = some (.dir es')

theorem Unchanged.refl (fs : Fs) : Unchanged fs fs := ⟨fun _ _ _ h => h, fun _ _ h => .inl h⟩

theorem Unchanged.trans {a b c : Fs} (hab : Unchanged a b) (hbc : Unchanged b c) :
    Unchanged a c := by
  refine ⟨fun d name j h => hbc.1 d name j (hab.1 d name j h), fun i n hn => ?_⟩
  rcases hab.2 i n hn with hsame | ⟨es, es', rfl, hdir⟩
  · exact hbc.2 i n hsame
  · rcases hbc.2 i _ hdir with hsame | ⟨_, es'', -, hdir'⟩
    · exact .inr ⟨es, es', rfl, hsame⟩
    · exact .inr ⟨es, es'', rfl, hdir'⟩

/-- A new empty directory under a name that was free. -/
def Made (fs : Fs) (parent : ℕ) (name : String) (fs' : Fs) : Prop :=
  ∃ es, fs.node parent = some (.dir es) ∧ es.get? name = none ∧
    fs' = (fs.alloc (.dir ∅)).set parent (.dir (es.insert name fs.next))

namespace Made

variable {fs fs' : Fs} {parent : ℕ} {name : String}

section

variable (h : Made fs parent name fs')
include h

theorem lt_next (hwf : fs.WellFormed) : parent < fs.next := by
  obtain ⟨es, hes, -, -⟩ := h
  exact hwf.lt_next hes

theorem next_eq : fs'.next = fs.next + 1 := by
  obtain ⟨es, -, -, rfl⟩ := h
  rfl

theorem free : fs.entry parent name = none := by
  obtain ⟨es, hes, hfree, -⟩ := h
  rw [Fs.entry_of_node hes, hfree]

theorem node_new (hwf : fs.WellFormed) :
    fs'.node fs.next = some (.dir ∅) := by
  have hlt := h.lt_next hwf
  obtain ⟨es, -, -, rfl⟩ := h
  rw [Fs.node_set_of_ne (by omega), Fs.node_alloc_self]

theorem entry_new : fs'.entry parent name = some fs.next := by
  obtain ⟨es, -, -, rfl⟩ := h
  rw [Fs.entry_set_dir, PyDict.get?_insert_self]

theorem node_of_ne {i : ℕ} (hi : i < fs.next) (hne : i ≠ parent) :
    fs'.node i = fs.node i := by
  obtain ⟨es, -, -, rfl⟩ := h
  rw [Fs.node_set_of_ne hne, Fs.node_alloc_of_ne (by omega)]

theorem entry_of_ne {x : String} (hne : x ≠ name) :
    fs'.entry parent x = fs.entry parent x := by
  obtain ⟨es, hes, -, rfl⟩ := h
  rw [Fs.entry_set_dir, PyDict.get?_insert_of_ne _ _ (Ne.symm hne), Fs.entry_of_node hes]

theorem isDir : ∃ es, fs'.node parent = some (.dir es) := by
  obtain ⟨es, -, -, rfl⟩ := h
  exact ⟨_, Fs.node_set_self ..⟩

theorem unchanged (hwf : fs.WellFormed) : Unchanged fs fs' := by
  constructor
  · intro d x j hj
    by_cases hd : d = parent
    · subst hd
      have hx : x ≠ name := by
        rintro rfl
        rw [h.free] at hj
        cases hj
      rw [h.entry_of_ne hx, hj]
    · obtain ⟨es, hes⟩ := Fs.node_of_entry hj
      rw [← hj]
      exact Fs.entry_congr (h.node_of_ne (hwf.lt_next hes) hd) x
  · intro i n hn
    by_cases hi : i = parent
    · subst hi
      obtain ⟨es', hes'⟩ := h.isDir
      obtain ⟨es, hes, -, -⟩ := h
      rw [hes] at hn
      exact .inr ⟨es, es', (Option.some.inj hn).symm, hes'⟩
    · rw [h.node_of_ne (hwf.lt_next hn) hi]
      exact .inl hn

theorem wellFormed (hwf : fs.WellFormed) : fs'.WellFormed := by
  have hlt := h.lt_next hwf
  have hnext := h.next_eq
  refine ⟨fun i hi => ?_, fun d x j hj => ?_⟩
  · have hnone : fs.node i = none := hwf.free i (by omega)
    obtain ⟨es, -, -, rfl⟩ := h
    rw [Fs.node_set_of_ne (by omega), Fs.node_alloc_of_ne (by omega), hnone]
  · by_cases hd : d = parent
    · subst hd
      by_cases hx : x = name
      · rw [hx, h.entry_new] at hj
        obtain rfl := Option.some.inj hj
        omega
      · rw [h.entry_of_ne hx] at hj
        have := hwf.closed d x j hj
        omega
    · by_cases hdn : d = fs.next
      · rw [hdn, Fs.entry_of_node (h.node_new hwf)] at hj
        cases hj
      · have hnode : fs'.node d = fs.node d := by
          obtain ⟨es, -, -, rfl⟩ := h
          rw [Fs.node_set_of_ne hd, Fs.node_alloc_of_ne hdn]
        rw [Fs.entry_congr hnode] at hj
        have := hwf.closed d x j hj
        omega

end

end Made

/-- The directory that a path leads to, through directories only. -/
def resolve (fs : Fs) (root : ℕ) : List String → Option ℕ
  | [] => some root
  | c :: cs =>
    match fs.entry root c with
    | none => none
    | some i =>
      match fs.node i with
      | some (.dir _) => resolve fs i cs
      | _ => none

theorem resolve_append (fs : Fs) (root : ℕ) (before : List String) (c : String) :
    resolve fs root (before ++ [c]) = (resolve fs root before).bind fun i => resolve fs i [c] := by
  induction before generalizing root with
  | nil => rfl
  | cons b before ih =>
    simp only [List.cons_append, resolve]
    split
    · rfl
    · split
      · exact ih _
      · rfl

/-- A directory of a directory of a path. -/
theorem resolve_pair {fs : Fs} {root i k : ℕ} {a b : String} {es es' : PyDict String ℕ}
    (ha : fs.entry root a = some i) (hi : fs.node i = some (.dir es)) (hb : fs.entry i b = some k)
    (hk : fs.node k = some (.dir es')) : resolve fs root [a, b] = some k := by
  simp [resolve, ha, hi, hb, hk]

namespace Fs

/-! ## File systems given by a list -/

/-- The inodes of a list, numbered from zero. -/
def ofList (nodes : List Inode) : Fs := ⟨fun i => nodes[i]?, nodes.length⟩

/-- Every entry leads to an inode below `n`. -/
def closedBelow (n : ℕ) : Inode → Bool
  | .dir es => es.entries.all fun e => e.2 < n
  | _ => true

theorem ofList_wellFormed {nodes : List Inode} (h : nodes.all (closedBelow nodes.length) = true) :
    (ofList nodes).WellFormed := by
  constructor
  · intro i hi
    exact List.getElem?_eq_none hi
  · intro d name j hj
    obtain ⟨es, hes⟩ := node_of_entry hj
    rw [entry_of_node hes] at hj
    have hmem : Inode.dir es ∈ nodes := List.mem_of_getElem? hes
    have hclosed := List.all_eq_true.1 h _ hmem
    have hentry := (PyDict.get?_eq_some_iff _ _ _).1 hj
    show j < nodes.length
    simpa using List.all_eq_true.1 hclosed _ hentry

/-- Where every entry leads to a greater number, no directory is inside itself. -/
theorem ofList_ranked {nodes : List Inode}
    (h : ∀ d, d < nodes.length → ∀ es, nodes[d]? = some (.dir es) → ∀ e ∈ es.entries, d < e.2) :
    (ofList nodes).Ranked := by
  refine ⟨id, ?_⟩
  intro d name j _ hj _
  obtain ⟨es, hes⟩ := node_of_entry hj
  rw [entry_of_node hes] at hj
  have hd : d < nodes.length := (List.getElem?_eq_some_iff.1 hes).1
  exact h d hd es hes _ ((PyDict.get?_eq_some_iff _ _ _).1 hj)

end Fs

end InodeFs
