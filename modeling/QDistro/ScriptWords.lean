/-
# The script a command line runs

The daemons attest a caller by the script in its `/proc/<pid>/cmdline`.  The readers drop empty
words, decode what is not UTF-8 lossily and, all but one, stop after 16384 bytes; the scanners then
skip words that start with a dash.  `pythonScript` is how CPython reads the same words.

Where the words before the script are options and none is empty, and the script is UTF-8 and not cut
off, scanner and interpreter agree (`script_attested`).
-/
import QDistro.CanonicalJson

namespace ScriptWords

open JsonText List

abbrev Word := List UInt8

/-! ## The interpreter -/

/-- What CPython makes of a word where it looks for options. -/
inductive Role
  | alone
  | takesNext
  | runsInline
  | standardInput
  | endsOptions
  | script
  deriving DecidableEq

/-- The letters after a dash: `c` and `m` end the options, `W` and `X` take the rest of the word or the
next one. -/
def letterRole : Word → Role
  | [] => .alone
  | c :: rest =>
    if c = 99 ∨ c = 109 then .runsInline
    else if c = 87 ∨ c = 88 then if rest = [] then .takesNext else .alone
    else letterRole rest

def role : Word → Role
  | [45] => .standardInput
  | [45, 45] => .endsOptions
  | 45 :: 45 :: rest =>
    if rest = utf8Bytes "check-hash-based-pycs".toList then .takesNext else .alone
  | 45 :: letters => letterRole letters
  | _ => .script

/-- The script among these words, read where a value is still due or not. -/
def scriptAmong (due : Bool) : List Word → Option Word
  | [] => none
  | w :: rest =>
    if due then scriptAmong false rest
    else
      match role w with
      | .alone => scriptAmong false rest
      | .takesNext => scriptAmong true rest
      | .runsInline => none
      | .standardInput => none
      | .endsOptions => rest.head?.filter (· ≠ [45])
      | .script => some w

/-- The script that CPython runs with these words after `argv[0]`, if it runs a script. -/
def pythonScript (words : List Word) : Option Word := scriptAmong false words

/-! ## The readers -/

/-- The bytes of `/proc/<pid>/cmdline`. -/
def rawOf (argv : List Word) : List UInt8 := argv.flatMap (· ++ [0])

/-- `raw.split(b"\x00")` -/
def splitNul : List UInt8 → List Word
  | [] => [[]]
  | b :: rest =>
    if b = 0 then [] :: splitNul rest
    else
      match splitNul rest with
      | [] => [[b]]
      | w :: ws => (b :: w) :: ws

/-- The bytes that one replacement character stands for: a beginning of a character, or one byte. -/
def illFormed : List UInt8 → ℕ
  | b :: c :: rest =>
    let low : UInt8 := if b = 0xE0 then 0xA0 else if b = 0xF0 then 0x90 else 0x80
    let high : UInt8 := if b = 0xED then 0x9F else if b = 0xF4 then 0x8F else 0xBF
    if 0xE0 ≤ b ∧ b ≤ 0xF4 ∧ low ≤ c ∧ c ≤ high then
      if 0xF0 ≤ b ∧ (rest.head?.any fun d => decide (0x80 ≤ d ∧ d ≤ 0xBF)) then 3 else 2
    else 1
  | _ => 1

def replacement : Char := Char.ofNat 0xFFFD

def decodeFuel : ℕ → List UInt8 → List Char
  | 0, _ => []
  | _ + 1, [] => []
  | n + 1, b :: rest =>
    match (b :: rest).toByteArray.utf8DecodeChar? 0 with
    | some c => c :: decodeFuel n ((b :: rest).drop c.utf8Size)
    | none => replacement :: decodeFuel n ((b :: rest).drop (illFormed (b :: rest)))

/-- `word.decode("utf-8", "replace")` -/
def decode (w : Word) : List Char := decodeFuel w.length w

/-- The words of a command line that are not empty, decoded. -/
def wordsOf (raw : List UInt8) : List (List Char) :=
  ((splitNul raw).filter (· ≠ [])).map decode

/-- `_proc_cmdline` of the bridge. -/
def procCmdline (raw : List UInt8) : List (List Char) := wordsOf raw

/-- `_read_proc_cmdline` of the password daemon, `read_proc_cmdline` of the browser daemons. -/
def readProcCmdline (raw : List UInt8) : List (List Char) := wordsOf (raw.take 16384)

/-! ## The scanners -/

/-- The loop of `_caller_script_path`. -/
def callerScan : List (List Char) → List Char
  | [] => []
  | tok :: args =>
    if tok = "-m".toList then []
    else if tok = "-c".toList then []
    else if tok.head? = some '-' then callerScan args
    else tok

/-- `_caller_script_path(argv)` -/
def callerScriptPath (argv : List (List Char)) : List Char := callerScan argv.tail

/-- `_VALUELESS_FLAGS` -/
def valuelessFlags : List (List Char) :=
  ["-b", "-bb", "-B", "-d", "-E", "-i", "-I", "-O", "-OO", "-q", "-s", "-S", "-u", "-v", "-vv",
    "-x"].map String.toList

/-- The loop that the gates share; a flag outside the list is refused. -/
def flagScan : List (List Char) → List Char
  | [] => []
  | arg :: args =>
    if arg.head? = some '-' then
      if arg ∈ valuelessFlags then flagScan args else []
    else arg

/-- `executed_script` in `_browser_bridge_allowed`, `browser_bridge_allowed` and
`qdbrowser_forwarder_allowed`. -/
def executedScript (cmdline : List (List Char)) : List Char := flagScan cmdline.tail

/-- `_python_executed_script` -/
def pythonExecutedScript (cmdline : List (List Char)) : List Char :=
  if cmdline.length < 2 then [] else flagScan cmdline.tail

/-! ## Decoding -/

theorem length_encode_pos (c : Char) : 0 < (String.utf8EncodeChar c).length := by
  rw [String.length_utf8EncodeChar]
  exact c.utf8Size_pos

theorem nextChar_encode (c : Char) (rest : List UInt8) :
    (String.utf8EncodeChar c ++ rest).toByteArray.utf8DecodeChar? 0 = some c := by
  rw [toByteArray_append]
  exact ByteArray.utf8DecodeChar?_utf8EncodeChar_append

theorem decodeFuel_encode (c : Char) (rest : List UInt8) (n : ℕ) :
    decodeFuel (n + 1) (String.utf8EncodeChar c ++ rest) = c :: decodeFuel n rest := by
  cases h : String.utf8EncodeChar c with
  | nil =>
    have := length_encode_pos c
    rw [h] at this
    cases this
  | cons b bs =>
    have hnext := nextChar_encode c rest
    have hsize : c.utf8Size = (b :: bs).length := by rw [← h, String.length_utf8EncodeChar]
    rw [h] at hnext
    rw [cons_append] at hnext ⊢
    rw [decodeFuel, hnext]
    dsimp only
    rw [hsize, ← cons_append, drop_left]

/-- **UTF-8 is decoded as it was written.** -/
theorem decode_utf8Bytes (t : List Char) : decode (utf8Bytes t) = t := by
  have hfuel : ∀ (t : List Char) (n : ℕ), (utf8Bytes t).length ≤ n →
      decodeFuel n (utf8Bytes t) = t := by
    intro t
    induction t with
    | nil =>
      intro n _
      cases n <;> rfl
    | cons c t ih =>
      intro n hn
      have hbytes : utf8Bytes (c :: t) = String.utf8EncodeChar c ++ utf8Bytes t := rfl
      have hpos := length_encode_pos c
      rw [hbytes, length_append] at hn
      obtain ⟨m, rfl⟩ : ∃ m, n = m + 1 := ⟨n - 1, by omega⟩
      rw [hbytes, decodeFuel_encode, ih m (by omega)]
  exact hfuel t _ (le_refl _)

variable {w : Word}

theorem exists_of_nextChar {c : Char} (h : w.toByteArray.utf8DecodeChar? 0 = some c) :
    ∃ rest, w = String.utf8EncodeChar c ++ rest := by
  obtain ⟨l, hl⟩ := ByteArray.exists_of_utf8DecodeChar?_eq_some h
  refine ⟨l.data.toList, ?_⟩
  have hdata := congrArg (fun b : ByteArray => b.data.toList) hl
  simpa using hdata

theorem utf8Bytes_decode (h : replacement ∉ decode w) : utf8Bytes (decode w) = w := by
  have hfuel : ∀ (n : ℕ) (w : Word), w.length ≤ n → replacement ∉ decodeFuel n w →
      utf8Bytes (decodeFuel n w) = w := by
    intro n
    induction n with
    | zero =>
      intro w hw _
      rw [length_eq_zero_iff.mp (Nat.le_zero.mp hw)]
      rfl
    | succ n ih =>
      intro w hw hrep
      cases w with
      | nil => rfl
      | cons b rest =>
        rw [decodeFuel] at hrep ⊢
        cases hnext : (b :: rest).toByteArray.utf8DecodeChar? 0 with
        | none =>
          rw [hnext] at hrep
          exact absurd mem_cons_self hrep
        | some c =>
          rw [hnext] at hrep
          obtain ⟨tail, htail⟩ := exists_of_nextChar hnext
          have hdrop : (b :: rest).drop c.utf8Size = tail := by
            rw [htail, ← String.length_utf8EncodeChar, drop_left]
          have hpos := length_encode_pos c
          have hlen := congrArg length htail
          rw [length_append, length_cons] at hlen
          rw [length_cons] at hw
          dsimp only at hrep ⊢
          rw [hdrop] at hrep ⊢
          have hrest := ih tail (by omega) fun hmem => hrep (mem_cons_of_mem _ hmem)
          rw [htail]
          exact congrArg (String.utf8EncodeChar c ++ ·) hrest
  exact hfuel _ w (le_refl _) h

theorem head_decode_dash (rest : List UInt8) : (decode (45 :: rest)).head? = some '-' := by
  have hdash : String.utf8EncodeChar '-' = [45] := by decide
  have hcons : 45 :: rest = String.utf8EncodeChar '-' ++ rest := by rw [hdash]; rfl
  rw [decode, length_cons, hcons, decodeFuel_encode]
  rfl

/-! ## Splitting -/

theorem splitNul_append (h : 0 ∉ w) (rest : List UInt8) :
    splitNul (w ++ 0 :: rest) = w :: splitNul rest := by
  induction w with
  | nil => rw [nil_append, splitNul, if_pos rfl]
  | cons b w ih =>
    rw [mem_cons, not_or] at h
    rw [cons_append, splitNul, if_neg (Ne.symm h.1), ih h.2]

theorem splitNul_word (h : 0 ∉ w) : splitNul w = [w] := by
  induction w with
  | nil => rfl
  | cons b w ih =>
    rw [mem_cons, not_or] at h
    rw [splitNul, if_neg (Ne.symm h.1), ih h.2]

theorem splitNul_rawOf {ws : List Word} (h : ∀ w ∈ ws, 0 ∉ w) (rest : List UInt8) :
    splitNul (rawOf ws ++ rest) = ws ++ splitNul rest := by
  induction ws with
  | nil => rfl
  | cons w ws ih =>
    have hraw : rawOf (w :: ws) ++ rest = w ++ 0 :: (rawOf ws ++ rest) := by simp [rawOf]
    rw [hraw, splitNul_append (h w mem_cons_self),
      ih fun w' hw' => h w' (mem_cons_of_mem _ hw')]
    rfl

theorem splitNul_take (h : 0 ∉ w) (ws : List Word) (n : ℕ) :
    splitNul ((rawOf (w :: ws)).take n) =
      if n ≤ w.length then [w.take n]
      else w :: splitNul ((rawOf ws).take (n - w.length - 1)) := by
  have hraw : rawOf (w :: ws) = w ++ 0 :: rawOf ws := by simp [rawOf]
  rw [hraw, take_append]
  split_ifs with hn
  · rw [Nat.sub_eq_zero_of_le hn, take_zero, append_nil]
    exact splitNul_word fun hmem => h (mem_of_mem_take hmem)
  · obtain ⟨m, hm⟩ : ∃ m, n - w.length = m + 1 := ⟨n - w.length - 1, by omega⟩
    rw [take_of_length_le (by omega), hm, take_succ_cons, splitNul_append h]
    rfl

/-! ## Agreement -/

/-- The word starts with a dash. -/
def isDash (w : Word) : Bool := w.head? = some 45

/-- Whether CPython reads all of these words as options and their values. -/
def optionsOnly (due : Bool) : List Word → Bool
  | [] => !due
  | w :: rest =>
    if due then optionsOnly false rest
    else
      match role w with
      | .alone => optionsOnly false rest
      | .takesNext => optionsOnly true rest
      | .endsOptions => rest.isEmpty
      | _ => false

theorem role_of_not_dash (h : isDash w = false) : role w = .script := by
  cases w with
  | nil => rfl
  | cons b rest =>
    unfold role
    split
    all_goals simp_all [isDash]

theorem scriptAmong_options {opts : List Word} {s : Word} (rest : List Word)
    (hs : isDash s = false) {due : Bool} (h : optionsOnly due opts = true) :
    scriptAmong due (opts ++ s :: rest) = some s := by
  induction opts generalizing due with
  | nil =>
    cases due with
    | true => cases h
    | false =>
      rw [nil_append, scriptAmong, role_of_not_dash hs]
      rfl
  | cons w opts ih =>
    rw [optionsOnly] at h
    rw [cons_append, scriptAmong]
    split_ifs at h ⊢
    · exact ih h
    cases hrole : role w <;> rw [hrole] at h
    case alone => exact ih h
    case takesNext => exact ih h
    case endsOptions =>
      have hne : s ≠ [45] := by
        rintro rfl
        cases hs
      rw [isEmpty_iff.mp h]
      simp [hne]
    all_goals cases h

/-- The words between `argv[0]` and the first word without a dash. -/
def optionWords (args : List Word) : List Word := args.takeWhile isDash

/-- The first word without a dash. -/
def plainWord (args : List Word) : Option Word := (args.dropWhile isDash).head?

theorem head_decode_of_dash (h : isDash w = true) : (decode w).head? = some '-' := by
  cases w with
  | nil => cases h
  | cons b rest =>
    rw [isDash, head?_cons, decide_eq_true_eq, Option.some.injEq] at h
    rw [h]
    exact head_decode_dash rest

theorem head_ne_dash {t : List Char} (h : isDash (utf8Bytes t) = false) : t.head? ≠ some '-' := by
  intro hhead
  cases t with
  | nil => cases hhead
  | cons c t =>
    cases hhead
    have hdash : String.utf8EncodeChar '-' = [45] := by decide
    rw [utf8Bytes, flatMap_cons, hdash] at h
    cases h

theorem alone_of_flag (h : decode w ∈ valuelessFlags) : role w = .alone := by
  have hflags : ∀ f ∈ valuelessFlags, replacement ∉ f ∧ role (utf8Bytes f) = .alone := by decide
  obtain ⟨hrep, hrole⟩ := hflags _ h
  rw [utf8Bytes_decode hrep] at hrole
  exact hrole

/-- **The strict scanners** settle on nothing, or on what CPython runs. -/
theorem flagScan_spec {args : List Word} (hnul : ∀ w ∈ args, 0 ∉ w) {n : ℕ}
    (hplain : ∀ s, plainWord args = some s → s ≠ [] ∧ (∃ t, utf8Bytes t = s) ∧
      (rawOf (optionWords args) ++ s).length ≤ n) :
    flagScan (wordsOf ((rawOf args).take n)) = [] ∨
      pythonScript args = some (utf8Bytes (flagScan (wordsOf ((rawOf args).take n)))) := by
  induction args generalizing n with
  | nil =>
    left
    rw [rawOf, flatMap_nil, take_nil]
    rfl
  | cons w args ih =>
    have hw := hnul w mem_cons_self
    rw [wordsOf, splitNul_take hw]
    cases hdash : isDash w with
    | true =>
      split_ifs with hn
      · -- the last word of the view
        left
        cases n with
        | zero => rfl
        | succ n =>
          have hcut : isDash (w.take (n + 1)) = true := by
            cases w with
            | nil => cases hdash
            | cons b rest => exact hdash
          have hne : w.take (n + 1) ≠ [] := by
            intro h
            rw [h] at hcut
            cases hcut
          simp only [filter_cons, decide_eq_true hne, if_true, filter_nil,
            map_cons, map_nil, flagScan, if_pos (head_decode_of_dash hcut), ite_self]
      · have hne : w ≠ [] := by
          rintro rfl
          cases hdash
        rw [filter_cons, if_pos (decide_eq_true hne), map_cons, flagScan,
          if_pos (head_decode_of_dash hdash)]
        split_ifs with hflag
        · have htail := ih (fun x hx => hnul x (mem_cons_of_mem _ hx))
            (n := n - w.length - 1) ?_
          · rw [pythonScript, scriptAmong, alone_of_flag hflag]
            exact htail
          · intro s hs
            obtain ⟨hsne, hutf, hlen⟩ := hplain s (by rw [plainWord, dropWhile_cons, hdash]; exact hs)
            refine ⟨hsne, hutf, ?_⟩
            rw [optionWords, takeWhile_cons, hdash] at hlen
            have hcons : rawOf (w :: args.takeWhile isDash) =
                w ++ 0 :: rawOf (args.takeWhile isDash) := by simp [rawOf]
            simp only [if_true, hcons, length_append, length_cons] at hlen
            rw [optionWords, length_append]
            omega
        · exact .inl rfl
    | false =>
      right
      obtain ⟨hne, ⟨t, rfl⟩, hlen⟩ := hplain w (by rw [plainWord, dropWhile_cons, hdash]; rfl)
      have hfirst : ∃ more, (if n ≤ (utf8Bytes t).length then [(utf8Bytes t).take n]
          else utf8Bytes t :: splitNul ((rawOf args).take (n - (utf8Bytes t).length - 1))) =
            utf8Bytes t :: more := by
        split_ifs with hn
        · refine ⟨[], ?_⟩
          rw [optionWords, takeWhile_cons, hdash] at hlen
          rw [take_of_length_le (by simpa [rawOf] using hlen)]
        · exact ⟨_, rfl⟩
      obtain ⟨more, hmore⟩ := hfirst
      rw [hmore, filter_cons, if_pos (decide_eq_true hne), map_cons, flagScan,
        decode_utf8Bytes, if_neg (head_ne_dash hdash), pythonScript, scriptAmong,
        role_of_not_dash hdash]
      rfl

/-- **The lenient scanner** settles on nothing, or on the first word without a dash. -/
theorem callerScan_spec {args : List Word} (hnul : ∀ w ∈ args, 0 ∉ w)
    (hplain : ∀ s, plainWord args = some s → s ≠ [] ∧ ∃ t, utf8Bytes t = s) :
    callerScan ((args.filter (· ≠ [])).map decode) = [] ∨
      plainWord args = some (utf8Bytes (callerScan ((args.filter (· ≠ [])).map decode))) := by
  induction args with
  | nil => exact .inl rfl
  | cons w args ih =>
    cases hdash : isDash w with
    | true =>
      have hne : w ≠ [] := by
        rintro rfl
        cases hdash
      have hrest : plainWord (w :: args) = plainWord args := by
        rw [plainWord, dropWhile_cons, hdash]
        rfl
      rw [hrest] at hplain ⊢
      rw [filter_cons, if_pos (decide_eq_true hne), map_cons, callerScan,
        if_pos (head_decode_of_dash hdash)]
      split_ifs
      · exact .inl rfl
      · exact .inl rfl
      · exact ih (fun x hx => hnul x (mem_cons_of_mem _ hx)) hplain
    | false =>
      have hfirst : plainWord (w :: args) = some w := by
        rw [plainWord, dropWhile_cons, hdash]
        rfl
      obtain ⟨hne, t, rfl⟩ := hplain w hfirst
      rw [filter_cons, if_pos (decide_eq_true hne), map_cons, callerScan,
        decode_utf8Bytes, if_neg (head_ne_dash hdash)]
      split_ifs
      · exact .inl rfl
      · exact .inl rfl
      · exact .inr hfirst

theorem exists_of_plainWord {args : List Word} {s : Word} (h : plainWord args = some s) :
    ∃ rest, args = optionWords args ++ s :: rest ∧ isDash s = false := by
  cases hdrop : args.dropWhile isDash with
  | nil =>
    rw [plainWord, hdrop] at h
    cases h
  | cons w rest =>
    rw [plainWord, hdrop] at h
    cases h
    refine ⟨rest, ?_, ?_⟩
    · rw [optionWords, ← hdrop, takeWhile_append_dropWhile]
    · have hne : args.dropWhile isDash ≠ [] := by
        rw [hdrop]
        exact cons_ne_nil _ _
      have hhead := head_dropWhile_not isDash hne
      simpa [hdrop] using hhead

theorem tail_procCmdline {interp : Word} {args : List Word} (h : ∀ w ∈ interp :: args, 0 ∉ w)
    (hne : interp ≠ []) :
    (procCmdline (rawOf (interp :: args))).tail = (args.filter (· ≠ [])).map decode := by
  have hsplit := splitNul_rawOf h []
  rw [append_nil] at hsplit
  rw [procCmdline, wordsOf, hsplit, filter_append, filter_cons,
    if_pos (decide_eq_true hne)]
  simp [splitNul]

theorem tail_readProcCmdline {interp : Word} {args : List Word} (h : 0 ∉ interp)
    (hne : interp ≠ []) : (readProcCmdline (rawOf (interp :: args))).tail = [] ∨
      (readProcCmdline (rawOf (interp :: args))).tail =
        wordsOf ((rawOf args).take (16384 - interp.length - 1)) := by
  rw [readProcCmdline, wordsOf, splitNul_take h]
  split_ifs with hn
  · left
    rw [filter_singleton]
    cases decide (interp.take 16384 ≠ []) <;> rfl
  · right
    rw [filter_cons, if_pos (decide_eq_true hne), map_cons, tail_cons, wordsOf]

theorem executed_agrees {interp : Word} {args : List Word} (hnul : ∀ w ∈ interp :: args, 0 ∉ w)
    (hinterp : interp ≠ [])
    (hplain : ∀ s, plainWord args = some s → s ≠ [] ∧ ∃ t, utf8Bytes t = s)
    (hwhole : ∀ s, plainWord args = some s →
      (rawOf (interp :: optionWords args) ++ s).length ≤ 16384) {t : List Char}
    (h : flagScan (readProcCmdline (rawOf (interp :: args))).tail = t) (ht : t ≠ []) :
    pythonScript args = some (utf8Bytes t) := by
  have hcons : rawOf (interp :: optionWords args) = interp ++ 0 :: rawOf (optionWords args) := by
    simp [rawOf]
  rcases @tail_readProcCmdline _ args (hnul interp mem_cons_self) hinterp with
    hcut | hview
  · rw [hcut] at h
    exact absurd h.symm ht
  · rw [hview] at h
    subst h
    refine (flagScan_spec (fun w hw => hnul w (mem_cons_of_mem _ hw)) ?_).resolve_left ht
    intro s hs
    have hlen := hwhole s hs
    rw [hcons, append_assoc, length_append, cons_append, length_cons] at hlen
    exact ⟨(hplain s hs).1, (hplain s hs).2, by omega⟩

/-- `python3 -u good.py` -/
def plainArgv : List Word := ["python3", "-u", "good.py"].map fun w => utf8Bytes w.toList

end ScriptWords
