/-
# A restore is crash consistent

A swap that is interrupted anywhere, and whose recoveries are interrupted anywhere, ends with the
first recovery that completes: the state is the old tree or the whole clone, the old tree is still
there, and the journal is gone.

The journal has to be read back as it was written.  `_write_marker` writes the `repr` of each path
and `_read_marker` only takes the quotes off again, so a path that `repr` escapes (a backslash, a
character that is not printable, both kinds of quotes) comes back as another path, and the old
tree that waits at the temporary path is forgotten.
-/
import QDistro.JsonRoundTrip
import QDistro.SnapSwap

namespace SnapSwap

open EffectRules List Function

variable {τ : Type} {u : UnicodeDb} {p : StatePath}

/-! ## Reading a journal back -/

theorem forall_mem_of_all {P : Char → Prop} [DecidablePred P] {l : List Char}
    (h : (l.all fun c => decide (P c)) = true) : ∀ c ∈ l, P c := by
  intro c hc
  exact of_decide_eq_true (all_eq_true.mp h c hc)

/-- A text that `repr` only puts quotes around. -/
structure Plain (u : UnicodeDb) (s : List Char) : Prop where
  printable : ∀ c ∈ s, u.isprintable c = true ∧ c ≠ '\\'
  quotes : ¬ (PyText.apostrophe ∈ s ∧ '"' ∈ s)

theorem ne_of_printable {c d : Char} (hc : u.isprintable c = true)
    (hd : u.isprintable d = false) : c ≠ d := by
  rintro rfl
  rw [hc] at hd
  cases hd

theorem reprChar_line {q c d : Char} (hq : q = PyText.apostrophe ∨ q = '"')
    (hd : d ∈ PyText.reprChar u q c) : (decide (d = '\n') || decide (d = '\r')) = false := by
  have hnl : u.isprintable '\n' = false := u.isprintable_ascii '\n' (by decide)
  have hcr : u.isprintable '\r' = false := u.isprintable_ascii '\r' (by decide)
  have hhex : ∀ width n, d ∈ PyText.hexPad width n → d ≠ '\n' ∧ d ≠ '\r' := by
    intro width
    induction width with
    | zero =>
      intro n hmem
      cases hmem
    | succ w ih =>
      intro n hmem
      rcases mem_append.mp hmem with hmem | hmem
      · exact ih _ hmem
      · rw [mem_singleton.mp hmem]
        have hlt : n % 16 < 16 := Nat.mod_lt _ (by decide)
        generalize n % 16 = k at hlt
        revert k
        decide
  have hword : ∀ {l : List Char}, (∀ e ∈ l, e ≠ '\n' ∧ e ≠ '\r') → d ∈ l → d ≠ '\n' ∧ d ≠ '\r' :=
    fun hl hmem => hl d hmem
  have hne : d ≠ '\n' ∧ d ≠ '\r' := by
    unfold PyText.reprChar at hd
    split at hd
    · next hc =>
      refine hword (forall_mem_of_all ?_) hd
      rcases hc with rfl | rfl
      · rcases hq with rfl | rfl <;> decide
      · decide
    split at hd
    · exact hword (forall_mem_of_all (by decide)) hd
    split at hd
    · exact hword (forall_mem_of_all (by decide)) hd
    split at hd
    · exact hword (forall_mem_of_all (by decide)) hd
    split at hd
    · next hc =>
      rw [mem_singleton.mp hd]
      exact ⟨ne_of_printable hc hnl, ne_of_printable hc hcr⟩
    split at hd
    · exact (mem_append.mp hd).elim (hword (forall_mem_of_all (by decide))) (hhex 2 _)
    split at hd
    · exact (mem_append.mp hd).elim (hword (forall_mem_of_all (by decide))) (hhex 4 _)
    · exact (mem_append.mp hd).elim (hword (forall_mem_of_all (by decide))) (hhex 8 _)
  simp [hne.1, hne.2]

/-- The quote that `repr` chooses. -/
def quoteOf (s : List Char) : Char :=
  if PyText.apostrophe ∈ s ∧ '"' ∉ s then '"' else PyText.apostrophe

/-- What stands between the quotes. -/
def escaped (u : UnicodeDb) (s : List Char) : List Char := s.flatMap (PyText.reprChar u (quoteOf s))

theorem quoteOf_cases (s : List Char) : quoteOf s = PyText.apostrophe ∨ quoteOf s = '"' := by
  unfold quoteOf
  split
  · exact .inr rfl
  · exact .inl rfl

theorem Plain.escaped {s : List Char} (hs : Plain u s) : escaped u s = s := by
  have hquote : ∀ c ∈ s, c ≠ quoteOf s := by
    intro c hc heq
    unfold quoteOf at heq
    split at heq
    · next hq => exact hq.2 (heq ▸ hc)
    · next hq =>
      rw [heq] at hc
      exact hq ⟨hc, fun hd => hs.quotes ⟨hc, hd⟩⟩
  have hone : ∀ c ∈ s, PyText.reprChar u (quoteOf s) c = [c] := by
    intro c hc
    obtain ⟨hprint, hslash⟩ := hs.printable c hc
    have hctl : ∀ d : Char, d.toNat < 32 → c ≠ d := by
      intro d hd
      refine ne_of_printable hprint ?_
      rw [u.isprintable_ascii d (by omega)]
      exact decide_eq_false (by omega)
    rw [PyText.reprChar, if_neg (not_or.mpr ⟨hquote c hc, hslash⟩), if_neg (hctl _ (by decide)),
      if_neg (hctl _ (by decide)), if_neg (hctl _ (by decide)), if_pos hprint]
  rw [SnapSwap.escaped, flatMap_congr hone]
  exact flatMap_singleton' s

theorem strip_ends {a b : Char} (l : List Char) (ha : u.isspace a = false)
    (hb : u.isspace b = false) : PyText.strip u (a :: (l ++ [b])) = a :: (l ++ [b]) := by
  have hrev : (a :: (l ++ [b])).reverse = b :: (l.reverse ++ [a]) := by simp
  rw [PyText.strip, dropWhile_cons_of_neg (by simp [ha]), hrev,
    dropWhile_cons_of_neg (by simp [hb])]
  simp

/-- A word that a journal uses as a key. -/
def Key (u : UnicodeDb) (key : List Char) : Prop :=
  key ≠ [] ∧ ∀ c ∈ key, u.isspace c = false ∧ c ≠ '=' ∧ (decide (c = '\n') || decide (c = '\r')) = false

theorem readLine_markerLine {key : List Char} (hkey : Key u key) (value : List Char) :
    readLine u (markerLine u key value) = some (key, escaped u value) := by
  obtain ⟨hne, hchars⟩ := hkey
  obtain ⟨k, key', rfl⟩ := exists_cons_of_ne_nil hne
  have hq : u.isspace (quoteOf value) = false := by
    rcases quoteOf_cases value with h | h <;> rw [h]
    · rw [u.isspace_ascii _ (by decide)]
      decide
    · rw [u.isspace_ascii _ (by decide)]
      decide
  have hspace : u.isspace ' ' = true := by
    rw [u.isspace_ascii _ (by decide)]
    decide
  have hk := (hchars k mem_cons_self).1
  have hrepr : (PyText.pyRepr u (String.ofList value)).toList =
      quoteOf value :: (escaped u value ++ [quoteOf value]) := by
    simp [PyText.pyRepr, escaped, quoteOf]
  have hline : markerLine u (k :: key') value =
      k :: ((key' ++ ' ' :: '=' :: ' ' :: quoteOf value :: escaped u value) ++ [quoteOf value]) := by
    rw [markerLine, hrepr]
    simp
  have hsplit : k :: ((key' ++ ' ' :: '=' :: ' ' :: quoteOf value :: escaped u value) ++
      [quoteOf value]) = (k :: key' ++ [' ']) ++
        '=' :: (' ' :: quoteOf value :: (escaped u value ++ [quoteOf value])) := by simp
  have hbefore : ∀ c ∈ k :: key' ++ [' '], (decide (c ≠ '=')) = true := by
    intro c hc
    rcases mem_append.mp hc with hc | hc
    · exact decide_eq_true (hchars c hc).2.1
    · rw [mem_singleton.mp hc]
      decide
  have hkeyStrip : PyText.strip u (k :: key' ++ [' ']) = k :: key' := by
    rw [PyText.strip, cons_append, dropWhile_cons_of_neg (by simp [hk])]
    have hrev : (k :: (key' ++ [' '])).reverse = ' ' :: (k :: key').reverse := by simp
    rw [hrev, dropWhile_cons_of_pos hspace]
    have hall : ∀ c ∈ (k :: key').reverse, u.isspace c = false :=
      fun c hc => (hchars c (mem_reverse.mp hc)).1
    rcases hr : (k :: key').reverse with _ | ⟨d, ds⟩
    · simp at hr
    · rw [dropWhile_cons_of_neg (by simp [hall d (hr ▸ mem_cons_self)]), ← hr,
        reverse_reverse]
  have hvalue : PyText.strip u (' ' :: quoteOf value :: (escaped u value ++ [quoteOf value])) =
      quoteOf value :: (escaped u value ++ [quoteOf value]) := by
    have h := strip_ends (u := u) (escaped u value) hq hq
    rw [PyText.strip] at h ⊢
    rw [dropWhile_cons_of_pos hspace]
    exact h
  have hunquote : unquote (quoteOf value :: (escaped u value ++ [quoteOf value])) =
      escaped u value := by
    rw [unquote, if_pos ⟨by simp, by simp, quoteOf_cases value⟩, dropLast_concat]
  unfold readLine
  rw [hline, strip_ends _ hk hq, hsplit]
  dsimp only
  rw [if_pos (by simp), takeWhile_append_of_pos hbefore, dropWhile_append_of_pos hbefore]
  simp only [ne_eq, not_true, decide_false, Bool.false_eq_true, not_false_eq_true,
    takeWhile_cons_of_neg, dropWhile_cons_of_neg, append_nil, drop_one,
    tail_cons]
  rw [hkeyStrip, hvalue, hunquote]

/-- **A journal comes back as it was escaped.** -/
theorem parseMarker_markerText (fields : List (List Char × List Char))
    (hkeys : ∀ f ∈ fields, Key u f.1) :
    parseMarker u (markerText u fields) = fields.map fun f => (f.1, escaped u f.2) := by
  induction fields with
  | nil => rfl
  | cons f rest ih =>
    have hkey := hkeys f mem_cons_self
    have hone : ∀ c ∈ markerLine u f.1 f.2, (decide (c = '\n') || decide (c = '\r')) = false := by
      intro c hc
      rcases mem_append.mp hc with hc | hc
      · rcases mem_append.mp hc with hc | hc
        · exact (hkey.2 c hc).2.2
        · exact (forall_mem_of_all (by decide) : ∀ c ∈ " = ".toList,
            (decide (c = '\n') || decide (c = '\r')) = false) c hc
      · have hquote : (decide (quoteOf f.2 = '\n') || decide (quoteOf f.2 = '\r')) = false := by
          rcases quoteOf_cases f.2 with h | h <;> rw [h] <;> decide
        simp only [PyText.pyRepr, String.toList_ofList, mem_cons, mem_append,
          mem_flatMap, not_mem_nil, or_false] at hc
        rcases hc with (rfl | ⟨d, -, hc⟩) | rfl
        · exact hquote
        · exact reprChar_line (quoteOf_cases f.2) hc
        · exact hquote
    have htext : markerText u (f :: rest) = markerLine u f.1 f.2 ++ '\n' :: markerText u rest := by
      simp [markerText]
    have hrest := ih fun g hg => hkeys g (mem_cons_of_mem _ hg)
    rw [parseMarker] at hrest ⊢
    rw [htext, splitOnP_append_cons_of_forall_mem hone '\n' (by decide), filterMap_cons,
      readLine_markerLine hkey, hrest, map_cons]

theorem field_journal (phase temp rejected snapshot : List Char) :
    field (parseMarker u (markerText u (journal phase temp rejected snapshot))) "phase" =
      escaped u phase ∧
    field (parseMarker u (markerText u (journal phase temp rejected snapshot))) "temp" =
      escaped u temp ∧
    field (parseMarker u (markerText u (journal phase temp rejected snapshot))) "rejected" =
      escaped u rejected := by
  have hword : ∀ key : List Char, key ≠ [] → (∀ c ∈ key, 97 ≤ c.toNat ∧ c.toNat ≤ 122) →
      Key u key := by
    intro key hne hletters
    refine ⟨hne, fun c hc => ?_⟩
    have hc := hletters c hc
    have hnot : ∀ d : Char, d.toNat < 97 → c ≠ d := by
      rintro d hd rfl
      omega
    refine ⟨?_, hnot _ (by decide), ?_⟩
    · rw [u.isspace_ascii c (by omega)]
      exact decide_eq_false (by omega)
    · rw [decide_eq_false (hnot _ (by decide)), decide_eq_false (hnot _ (by decide))]
      rfl
  rw [parseMarker_markerText]
  · have hmap : ((journal phase temp rejected snapshot).map fun f => (f.1, escaped u f.2)) =
        journal (escaped u phase) (escaped u temp) (escaped u rejected) (escaped u snapshot) := rfl
    rw [hmap]
    exact ⟨rfl, rfl, rfl⟩
  · intro f hf
    simp only [journal, mem_cons, not_mem_nil, or_false] at hf
    rcases hf with rfl | rfl | rfl | rfl
    · exact hword "phase".toList (by decide) (forall_mem_of_all (by decide))
    · exact hword "temp".toList (by decide) (forall_mem_of_all (by decide))
    · exact hword "rejected".toList (by decide) (forall_mem_of_all (by decide))
    · exact hword "snapshot".toList (by decide) (forall_mem_of_all (by decide))

theorem Plain.extend {s t : List Char} (hs : Plain u s)
    (ht : ∀ c ∈ t, c ∈ s ∨ (45 ≤ c.toNat ∧ c.toNat ≤ 122 ∧ c ≠ '\\')) : Plain u t := by
  have hquote : ∀ c : Char, c.toNat < 45 → c ∈ t → c ∈ s := by
    intro c hc hmem
    rcases ht c hmem with h | h
    · exact h
    · omega
  refine ⟨fun c hc => ?_, ?_⟩
  · rcases ht c hc with h | ⟨hlow, hhigh, hslash⟩
    · exact hs.printable c h
    · refine ⟨?_, hslash⟩
      rw [u.isprintable_ascii c (by omega)]
      exact decide_eq_true (by omega)
  · rintro ⟨h1, h2⟩
    exact hs.quotes ⟨hquote _ (by decide) h1, hquote _ (by decide) h2⟩

theorem mem_decimal {n : ℕ} {c : Char} (hc : c ∈ decimal n) :
    45 ≤ c.toNat ∧ c.toNat ≤ 122 ∧ c ≠ '\\' := by
  have hd := JsonText.isDigit_of_mem_repr hc
  have hrange : 48 ≤ c.toNat ∧ c.toNat ≤ 57 := by
    have hd' : (decide (c.val ≥ '0'.val) && decide (c.val ≤ '9'.val)) = true := hd
    simp only [Bool.and_eq_true, decide_eq_true_eq, ge_iff_le, UInt32.le_iff_toNat_le] at hd'
    exact hd'
  refine ⟨by omega, by omega, ?_⟩
  rintro rfl
  exact absurd hrange (by decide)

theorem Plain.siblingTemp (hs : Plain u p.text) (ms pid : ℕ) : Plain u (siblingTemp p ms pid) := by
  refine hs.extend fun c hc => ?_
  have hword : ∀ c ∈ ".snap-swap-".toList, 45 ≤ c.toNat ∧ c.toNat ≤ 122 ∧ c ≠ '\\' :=
      forall_mem_of_all (by decide)
  simp only [SnapSwap.siblingTemp, StatePath.text, mem_append, mem_cons] at hc ⊢
  rcases hc with hc | hc | rfl | hc | (hc | hc) | rfl | hc
  · exact .inl (.inl hc)
  · exact .inl (.inr (.inl hc))
  · exact .inr (by decide)
  · exact .inl (.inr (.inr hc))
  · exact .inr (hword c hc)
  · exact .inr (mem_decimal hc)
  · exact .inr (by decide)
  · exact .inr (mem_decimal hc)

/-! ## The names of a swap -/

variable {fs : Fs τ}

theorem firstFree_eq_some {base : Path} {fuel n : ℕ} {path : Path}
    (h : firstFree fs base fuel n = some path) :
    fs path = none ∧ ∃ k : List Char, path = base ++ k ∧
      ∀ c ∈ k, 45 ≤ c.toNat ∧ c.toNat ≤ 122 ∧ c ≠ '\\' := by
  induction fuel generalizing n with
  | zero => cases h
  | succ fuel ih =>
    rw [firstFree] at h
    generalize hcand : (if n = 0 then base else base ++ '-' :: decimal n) = cand at h
    split at h
    · exact ih h
    · next hfree =>
      cases h
      refine ⟨Option.not_isSome_iff_eq_none.mp hfree, ?_⟩
      by_cases hn : n = 0
      · exact ⟨[], by rw [← hcand, if_pos hn, append_nil], fun c hc => (by cases hc)⟩
      · refine ⟨'-' :: decimal n, by rw [← hcand, if_neg hn], fun c hc => ?_⟩
        rcases mem_cons.mp hc with rfl | hc
        · decide
        · exact mem_decimal hc

/-- The paths of a swap are apart. -/
structure Apart (p : StatePath) (temp rejected : Path) : Prop where
  temp_ne : temp ≠ []
  rejected_ne : rejected ≠ []
  temp_state : temp ≠ p.text
  rejected_state : rejected ≠ p.text
  rejected_temp : rejected ≠ temp
  marker_state : markerPath p ≠ p.text
  marker_temp : markerPath p ≠ temp
  marker_rejected : markerPath p ≠ rejected
  journal_state : markerTemp p ≠ p.text
  journal_temp : markerTemp p ≠ temp
  journal_rejected : markerTemp p ≠ rejected
  journal_marker : markerTemp p ≠ markerPath p

/-- The paths of a swap are apart, and the journal can name them. -/
structure Names (u : UnicodeDb) (p : StatePath) (temp rejected : Path) : Prop
    extends Apart p temp rejected where
  plainTemp : Plain u temp
  plainRejected : Plain u rejected

theorem dot_append_ne {parent base x y : List Char} {b : Char} (hxy : x ≠ y) :
    parent ++ '/' :: '.' :: (base ++ x) ≠ parent ++ '/' :: (base ++ b :: y) := by
  intro heq
  have h1 : ('.' :: base) ++ x = (base ++ [b]) ++ y := by
    have := append_cancel_left heq
    simpa using this
  exact hxy (append_inj h1 (by simp)).2

theorem Apart.of_free {fuel now ms pid : ℕ} {rejected : Path}
    (hr : firstFree fs (rejectedBase p now) fuel 0 = some rejected) :
    Apart p (siblingTemp p ms pid) rejected := by
  obtain ⟨-, k, hrej, -⟩ := firstFree_eq_some hr
  -- everything but the temporary name continues the name of the state
  have hlen : ∀ {x : List Char}, x ≠ [] → p.text ++ x ≠ p.text := by
    intro x hx heq
    exact hx (append_right_eq_self.mp heq)
  have hrejected : rejected = p.text ++ '-' :: ("rejected-".toList ++ decimal now ++ k) := by
    rw [hrej, rejectedBase]
    simp
  have hmarker : markerPath p = p.text ++ '.' :: "swap-pending.toml".toList := rfl
  have hjournal : markerTemp p = p.text ++ '.' :: ("swap-pending.toml".toList ++ ".tmp".toList) := by
    simp [markerTemp, markerPath]
  have htemp : ∀ (b : Char) (y : List Char), y.head? ≠ some '.' →
      p.text ++ b :: y ≠ siblingTemp p ms pid := by
    intro b y hy heq
    have htext : p.text ++ b :: y = p.parent ++ '/' :: (p.base ++ b :: y) := by
      simp [StatePath.text]
    rw [htext] at heq
    refine dot_append_ne ?_ heq.symm
    rintro rfl
    exact hy rfl
  refine
    { temp_ne := ?_, rejected_ne := ?_, temp_state := ?_,
      rejected_state := ?_, rejected_temp := ?_, marker_state := ?_, marker_temp := ?_,
      marker_rejected := ?_, journal_state := ?_, journal_temp := ?_, journal_rejected := ?_,
      journal_marker := ?_ }
  · simp [siblingTemp]
  · simp [hrejected]
  · intro heq
    have hl := congrArg length heq
    simp only [siblingTemp, StatePath.text, length_append, length_cons] at hl
    omega
  · rw [hrejected]
    exact hlen (cons_ne_nil _ _)
  · rw [hrejected]
    exact htemp _ _ (by simp)
  · rw [hmarker]
    exact hlen (cons_ne_nil _ _)
  · rw [hmarker]
    exact htemp _ _ (by decide)
  · rw [hmarker, hrejected]
    intro heq
    have := append_cancel_left heq
    simp at this
  · rw [hjournal]
    exact hlen (cons_ne_nil _ _)
  · rw [hjournal]
    exact htemp _ _ (by decide)
  · rw [hjournal, hrejected]
    intro heq
    have := append_cancel_left heq
    simp at this
  · rw [markerTemp]
    intro heq
    have := append_right_eq_self.mp heq
    simp at this

theorem Names.of_plain {fuel now ms pid : ℕ} {rejected : Path} (hs : Plain u p.text)
    (hr : firstFree fs (rejectedBase p now) fuel 0 = some rejected) :
    Names u p (siblingTemp p ms pid) rejected := by
  obtain ⟨-, k, hrejected, hk⟩ := firstFree_eq_some hr
  refine ⟨Apart.of_free hr, hs.siblingTemp ms pid, ?_⟩
  refine hs.extend fun c hc => ?_
  rw [hrejected, rejectedBase] at hc
  have hword : ∀ c ∈ "-rejected-".toList, 45 ≤ c.toNat ∧ c.toNat ≤ 122 ∧ c ≠ '\\' :=
    forall_mem_of_all (by decide)
  simp only [mem_append] at hc
  rcases hc with ((hc | hc) | hc) | hc
  · exact .inl hc
  · exact .inr (hword c hc)
  · exact .inr (mem_decimal hc)
  · exact .inr (hk c hc)

/-! ## The states that a crash leaves -/

section Crash

variable (u p) (temp rejected snapshot : Path) (old clone : τ)

/-- The journal on the disk, in a phase. -/
def Journalled (phase : List Char) (fs : Fs τ) : Prop :=
  fs (markerPath p) = some (.file (markerText u (journal phase temp rejected snapshot)))

/-- What a recovery has to reach: no journal, and the old tree at the state path or displaced by
the clone. -/
def Settled (fs : Fs τ) : Prop :=
  fs (markerPath p) = none ∧ (fs p.text = some (.dir old) ∨
    (fs p.text = some (.dir clone) ∧ fs rejected = some (.dir old)))

/-- **The states in which a swap or its recovery may be interrupted.** -/
inductive Mid (fs : Fs τ) : Prop
  | settled (h : Settled p rejected old clone fs)
  | materialized (hj : Journalled u p temp rejected snapshot phaseMaterialized fs)
      (hs : fs p.text = some (.dir old))
  /-- The exchange has not happened, and the name for the displaced tree is free. -/
  | exchanging (hj : Journalled u p temp rejected snapshot phaseExchanged fs)
      (hs : fs p.text = some (.dir old)) (hr : fs rejected = none)
  /-- A recovery has set the clone aside. -/
  | unused (hj : Journalled u p temp rejected snapshot phaseExchanged fs)
      (hs : fs p.text = some (.dir old)) (ht : fs temp = none)
  | exchanged (hj : Journalled u p temp rejected snapshot phaseExchanged fs)
      (hs : fs p.text = some (.dir clone)) (ht : fs temp = some (.dir old))
      (hr : fs rejected = none)
  | displaced (hj : Journalled u p temp rejected snapshot phaseExchanged fs)
      (hs : fs p.text = some (.dir clone)) (ht : fs temp = none)
      (hr : fs rejected = some (.dir old))
  | moving (hj : Journalled u p temp rejected snapshot phaseMoved fs)
      (hs : fs p.text = some (.dir old))
  /-- Between the two renames. -/
  | between (hj : Journalled u p temp rejected snapshot phaseMoved fs) (hs : fs p.text = none)
      (ht : fs temp = some (.dir clone)) (hr : fs rejected = some (.dir old))
  | moved (hj : Journalled u p temp rejected snapshot phaseMoved fs)
      (hs : fs p.text = some (.dir clone)) (ht : fs temp = none)
      (hr : fs rejected = some (.dir old))

end Crash

section Rules

variable {P Q : Fs τ → Prop} {E : Stop → Machine τ → Prop}

theorem effect_triple {f : Fs τ → Fs τ} (hE : ∀ m : Machine τ, P m.fs → E .crash m)
    (h : ∀ fs, P fs → Q (f fs)) :
    Triple (fun m => P m.fs) (effect f) (fun _ m => Q m.fs) E := by
  intro m hm
  unfold effect
  cases hleft : m.left with
  | zero => exact hE m hm
  | succ n => exact h m.fs hm

theorem look_bind {α β : Type} {f : Fs τ → α} {g : α → SwapM τ β} {R : β → Machine τ → Prop}
    (h : ∀ a, Triple (fun m => P m.fs ∧ f m.fs = a) (g a) R E) :
    Triple (fun m => P m.fs) (look f >>= g) R E := by
  intro m hm
  exact h (f m.fs) m ⟨hm, rfl⟩

theorem rename_triple {source target : Path} (hE : ∀ m : Machine τ, P m.fs → E .crash m)
    (hsource : ∀ fs, P fs → fs source ≠ none)
    (htarget : ∀ fs, P fs → ∀ t, fs target ≠ some (.dir t))
    (h : ∀ fs node, P fs → fs source = some node →
      Q (update (update fs target (some node)) source none)) :
    Triple (fun m => P m.fs) (rename source target) (fun _ m => Q m.fs) E := by
  refine look_bind fun nodes => ?_
  rcases nodes with ⟨_ | node, there⟩
  · intro m hm
    exact absurd (congrArg Prod.fst hm.2) (hsource _ hm.1)
  · have hthere : ∀ t, there = some (.dir t) → Triple
        (fun m : Machine τ => P m.fs ∧ (m.fs source, m.fs target) = (some node, there))
        (throw .failed) (fun (_ : Unit) m => Q m.fs) E := by
      intro t ht m hm
      exact absurd ((congrArg Prod.snd hm.2).trans ht) (htarget _ hm.1 t)
    have hmove : Triple
        (fun m : Machine τ => P m.fs ∧ (m.fs source, m.fs target) = (some node, there))
        (effect fun fs => update (update fs target (some node)) source none)
        (fun (_ : Unit) m => Q m.fs) E :=
      effect_triple (P := fun fs => P fs ∧ (fs source, fs target) = (some node, there))
        (fun m hm => hE m hm.1) fun fs hfs => h fs node hfs.1 (congrArg Prod.fst hfs.2)
    cases there with
    | none => exact hmove
    | some n =>
      cases n with
      | dir t => exact hthere t rfl
      | file text => exact hmove

theorem effect_keeps {f : Fs τ → Fs τ} (hE : ∀ m : Machine τ, P m.fs → E .crash m)
    (h : ∀ fs, P fs → P (f fs)) :
    Triple (fun m => P m.fs) (effect f) (fun _ m => P m.fs) E := effect_triple hE h

end Rules

/-! ## Recovery -/

section Recovery

variable {temp rejected snapshot : Path} {old clone : τ}

/-- How a recovery stops before its end. -/
def Stopped (u : UnicodeDb) (p : StatePath) (temp rejected snapshot : Path) (old clone : τ)
    (e : Stop) (m : Machine τ) : Prop :=
  e = .crash ∧ Mid u p temp rejected snapshot old clone m.fs

variable {P : Fs τ → Prop} {E : Stop → Machine τ → Prop}

theorem clearMarker_triple (hn : Apart p temp rejected) (hE : ∀ m : Machine τ, P m.fs → E .crash m)
    (hP : ∀ fs, P fs → fs p.text = some (.dir old) ∨
      (fs p.text = some (.dir clone) ∧ fs rejected = some (.dir old))) :
    Triple (fun m => P m.fs) (clearMarker p) (fun _ m => Settled p rejected old clone m.fs) E := by
  refine effect_triple hE fun fs hfs => ⟨?_, ?_⟩
  · rw [update_self]
  · rw [update_of_ne hn.marker_state.symm, update_of_ne hn.marker_rejected.symm]
    exact hP fs hfs

theorem dropClone_triple (part : τ) (hE : ∀ m : Machine τ, P m.fs → E .crash m)
    (hP : ∀ fs node, P fs → P (update fs temp node)) :
    Triple (fun m => P m.fs) (dropClone part temp) (fun _ m => P m.fs) E := by
  refine look_bind fun there => .weaken ?_ fun m hm => hm.1
  refine .ite (fun _ => ?_) fun _ => .pure fun _ hm => hm
  exact (effect_keeps hE fun fs => hP fs _).bind fun _ => effect_keeps hE fun fs => hP fs _

theorem abort_triple (hn : Apart p temp rejected) (part : τ) {phase : List Char} {w : Outcome}
    (hmid : ∀ fs : Fs τ, Journalled u p temp rejected snapshot phase fs →
      fs p.text = some (.dir old) → Mid u p temp rejected snapshot old clone fs) :
    Triple (fun m => Journalled u p temp rejected snapshot phase m.fs ∧
        m.fs p.text = some (.dir old))
      (do dropClone part temp; clearMarker p; pure w)
      (fun _ m => Settled p rejected old clone m.fs)
      (Stopped u p temp rejected snapshot old clone) := by
  have hclear : Triple (fun m => Journalled u p temp rejected snapshot phase m.fs ∧
        m.fs p.text = some (.dir old)) (clearMarker p)
      (fun _ m => Settled p rejected old clone m.fs)
      (Stopped u p temp rejected snapshot old clone) :=
    clearMarker_triple (P := fun fs => Journalled u p temp rejected snapshot phase fs ∧
        fs p.text = some (.dir old)) hn (fun m hm => ⟨rfl, hmid _ hm.1 hm.2⟩)
      fun fs hfs => .inl hfs.2
  refine (dropClone_triple (P := fun fs => Journalled u p temp rejected snapshot phase fs ∧
    fs p.text = some (.dir old)) part (fun m hm => ⟨rfl, hmid _ hm.1 hm.2⟩)
    fun fs node hfs => ?_).bind fun _ => hclear.bind fun _ => .pure fun _ hm => hm
  rw [Journalled, update_of_ne hn.marker_temp, update_of_ne hn.temp_state.symm]
  exact hfs

theorem setAside_triple {Q : Fs τ → Prop} (hn : Apart p temp rejected) (fuel : ℕ)
    (hmid : ∀ fs, P fs → Mid u p temp rejected snapshot old clone fs)
    (hP : ∀ fs, P fs → fs temp ≠ none ∧ fs rejected = none)
    (h : ∀ fs node, P fs → fs temp = some node →
      Q (update (update fs rejected (some node)) temp none)) :
    Triple (fun m => P m.fs) (setAside fuel p temp rejected) (fun _ m => Q m.fs)
      (Stopped u p temp rejected snapshot old clone) := by
  refine look_bind fun there => .ite (fun _ => ?_) fun hnot => ?_
  · refine look_bind (P := fun fs => P fs ∧ (fs temp).isSome = there) fun taken => ?_
    refine .ite (fun htaken => ?_) fun _ => ?_
    · intro m hm
      have hfree : (m.fs rejected).isSome = taken := hm.2
      rw [(hP _ hm.1.1).2] at hfree
      rcases htaken with h | h
      · exact absurd h hn.rejected_ne
      · rw [h] at hfree
        cases hfree
    · refine (rename_triple (P := P) (fun m hm => ⟨rfl, hmid _ hm⟩) (fun fs hfs => (hP fs hfs).1)
        (fun fs hfs t ht => ?_) h).weaken fun m hm => hm.1.1
      rw [(hP fs hfs).2] at ht
      cases ht
  · intro m hm
    have hsome := Option.isSome_iff_ne_none.mpr (hP _ hm.1).1
    exact absurd ⟨hn.temp_ne, hm.2.symm.trans hsome⟩ hnot

theorem look_eq {α : Type} (f : Fs τ → α) (m : Machine τ) : look f m = (.ok (f m.fs), m) := rfl

theorem lexists_eq (path : Path) (m : Machine τ) :
    lexists path m = (.ok (m.fs path).isSome, m) := rfl

variable {m : Machine τ}

theorem lexists_absent {path : Path} (h : m.fs path = none) :
    lexists path m = (.ok false, m) := by
  rw [lexists_eq, h]
  rfl

theorem lexists_present {path : Path} {node : Node τ} (h : m.fs path = some node) :
    lexists path m = (.ok true, m) := by
  rw [lexists_eq, h]
  rfl

theorem dropClone_absent (part : τ) (ht : m.fs temp = none) :
    dropClone part temp m = (.ok (), m) := by
  unfold dropClone
  rw [Act.bind_eq_of_ok (lexists_absent ht), if_neg (by simp)]
  rfl

theorem setAside_absent (fuel : ℕ) (ht : m.fs temp = none) :
    setAside fuel p temp rejected m = (.ok (), m) := by
  unfold setAside
  rw [Act.bind_eq_of_ok (lexists_absent ht), if_neg (by simp)]
  rfl

theorem cleaned_triple (hn : Apart p temp rejected) :
    Triple (fun m => Journalled u p temp rejected snapshot phaseExchanged m.fs ∧
        m.fs temp = none ∧ (m.fs p.text = some (.dir old) ∨
          (m.fs p.text = some (.dir clone) ∧ m.fs rejected = some (.dir old))))
      (do clearMarker p; pure Outcome.cleaned)
      (fun _ m => Settled p rejected old clone m.fs)
      (Stopped u p temp rejected snapshot old clone) := by
  refine .bind (clearMarker_triple (P := fun fs =>
    Journalled u p temp rejected snapshot phaseExchanged fs ∧ fs temp = none ∧
      (fs p.text = some (.dir old) ∨
        (fs p.text = some (.dir clone) ∧ fs rejected = some (.dir old)))) hn ?_
    fun fs hfs => hfs.2.2) fun _ => .pure fun _ hm => hm
  rintro m ⟨hj, ht, hs | ⟨hs, hr⟩⟩
  · exact ⟨rfl, .unused hj hs ht⟩
  · exact ⟨rfl, .displaced hj hs ht hr⟩

theorem exchanged_triple (hn : Apart p temp rejected) (fuel : ℕ)
    (hj : ∀ fs, P fs → Journalled u p temp rejected snapshot phaseExchanged fs)
    (hmid : ∀ fs, P fs → Mid u p temp rejected snapshot old clone fs)
    (hP : ∀ fs, P fs → fs temp ≠ none ∧ fs rejected = none)
    (hs : ∀ fs, P fs → fs p.text = some (.dir old) ∨
      (fs p.text = some (.dir clone) ∧ fs temp = some (.dir old))) :
    Triple (fun m => P m.fs)
      (do setAside fuel p temp rejected; clearMarker p; pure Outcome.cleaned)
      (fun _ m => Settled p rejected old clone m.fs)
      (Stopped u p temp rejected snapshot old clone) := by
  refine .bind (setAside_triple (Q := fun fs =>
    Journalled u p temp rejected snapshot phaseExchanged fs ∧ fs temp = none ∧
      (fs p.text = some (.dir old) ∨
        (fs p.text = some (.dir clone) ∧ fs rejected = some (.dir old)))) hn fuel hmid hP ?_)
    fun _ => cleaned_triple hn
  intro fs node hfs hnode
  refine ⟨?_, update_self .., ?_⟩
  · rw [Journalled, update_of_ne hn.marker_temp, update_of_ne hn.marker_rejected]
    exact hj fs hfs
  · rw [update_of_ne hn.temp_state.symm, update_of_ne hn.rejected_state.symm,
      update_of_ne hn.rejected_temp, update_self]
    refine (hs fs hfs).imp id fun hclone => ⟨hclone.1, ?_⟩
    rw [← hnode]
    exact hclone.2

theorem recover_journalled {phase : List Char}
    (hj : Journalled u p temp rejected snapshot phase m.fs) (part : τ) (fuel : ℕ) :
    recover u part fuel p m =
      recoverFrom part fuel p (escaped u phase) (escaped u temp) (escaped u rejected) m := by
  obtain ⟨h1, h2, h3⟩ := @field_journal u phase temp rejected snapshot
  have hread : readMarker u p m =
      (.ok (some (parseMarker u (markerText u (journal phase temp rejected snapshot)))), m) := by
    rw [readMarker, look_eq, show m.fs (markerPath p) = _ from hj]
  rw [recover, Act.bind_eq_of_ok hread]
  dsimp only
  rw [h1, h2, h3]

theorem recover_journal (hn : Names u p temp rejected) {phase : List Char}
    (hphase : Plain u phase) (hj : Journalled u p temp rejected snapshot phase m.fs) (part : τ)
    (fuel : ℕ) :
    recover u part fuel p m = recoverFrom part fuel p phase temp rejected m := by
  rw [recover_journalled hj, hphase.escaped, hn.plainTemp.escaped, hn.plainRejected.escaped]

theorem recover_clear (hm : m.fs (markerPath p) = none) (part : τ) (fuel : ℕ) :
    recover u part fuel p m = (.ok .none, m) := by
  have hread : readMarker u p m = (.ok none, m) := by
    rw [readMarker, look_eq, hm]
  rw [recover, Act.bind_eq_of_ok hread]
  rfl

theorem clearMoved_triple (hn : Apart p temp rejected)
    (hE : ∀ m : Machine τ, Mid u p temp rejected snapshot old clone m.fs → E .crash m) :
    Triple (fun m => Journalled u p temp rejected snapshot phaseMoved m.fs ∧
        m.fs p.text = some (.dir clone) ∧ m.fs temp = none ∧ m.fs rejected = some (.dir old))
      (clearMarker p) (fun _ m => Settled p rejected old clone m.fs) E :=
  clearMarker_triple (P := fun fs => Journalled u p temp rejected snapshot phaseMoved fs ∧
      fs p.text = some (.dir clone) ∧ fs temp = none ∧ fs rejected = some (.dir old)) hn
    (fun m h => hE m (.moved h.1 h.2.1 h.2.2.1 h.2.2.2)) fun _ hfs => .inr ⟨hfs.2.1, hfs.2.2.2⟩

theorem secondRename_triple (hn : Apart p temp rejected)
    (hE : ∀ m : Machine τ, Mid u p temp rejected snapshot old clone m.fs → E .crash m) :
    Triple (fun m => Journalled u p temp rejected snapshot phaseMoved m.fs ∧
        m.fs p.text = none ∧ m.fs temp = some (.dir clone) ∧ m.fs rejected = some (.dir old))
      (rename temp p.text)
      (fun _ m => Journalled u p temp rejected snapshot phaseMoved m.fs ∧
        m.fs p.text = some (.dir clone) ∧ m.fs temp = none ∧ m.fs rejected = some (.dir old))
      E := by
  refine rename_triple (P := fun fs => Journalled u p temp rejected snapshot phaseMoved fs ∧
      fs p.text = none ∧ fs temp = some (.dir clone) ∧ fs rejected = some (.dir old))
    (Q := fun fs => Journalled u p temp rejected snapshot phaseMoved fs ∧
      fs p.text = some (.dir clone) ∧ fs temp = none ∧ fs rejected = some (.dir old))
    (fun m hm => hE m (.between hm.1 hm.2.1 hm.2.2.1 hm.2.2.2)) (fun fs hfs hnone => ?_)
    (fun fs hfs t ht => ?_) fun fs node hfs hnode => ⟨?_, ?_, update_self .., ?_⟩
  · rw [hfs.2.2.1] at hnone
    cases hnone
  · rw [hfs.2.1] at ht
    cases ht
  · rw [Journalled, update_of_ne hn.marker_temp, update_of_ne hn.marker_state]
    exact hfs.1
  · rw [update_of_ne hn.temp_state.symm, update_self, ← hnode]
    exact hfs.2.2.1
  · rw [update_of_ne hn.rejected_temp, update_of_ne hn.rejected_state]
    exact hfs.2.2.2

theorem plain_word {w : List Char} (hw : ∀ c ∈ w, 45 ≤ c.toNat ∧ c.toNat ≤ 122 ∧ c ≠ '\\') :
    Plain u w :=
  Plain.extend (s := []) ⟨fun c hc => (by cases hc), fun h => (by cases h.1)⟩
    fun c hc => .inr (hw c hc)

/-- **A recovery settles the swap, or it is interrupted where it can be taken up again.** -/
theorem recover_triple (hn : Names u p temp rejected) (part : τ) (fuel : ℕ) :
    Triple (fun m => Mid u p temp rejected snapshot old clone m.fs) (recover u part fuel p)
      (fun _ m => Settled p rejected old clone m.fs)
      (Stopped u p temp rejected snapshot old clone) := by
  have hM : Plain u phaseMaterialized := plain_word (forall_mem_of_all (by decide))
  have hX : Plain u phaseExchanged := plain_word (forall_mem_of_all (by decide))
  have hV : Plain u phaseMoved := plain_word (forall_mem_of_all (by decide))
  have hXM : ¬ phaseExchanged = phaseMaterialized := by decide
  have hVM : ¬ phaseMoved = phaseMaterialized := by decide
  have hVX : ¬ phaseMoved = phaseExchanged := by decide
  have hstop : ∀ m : Machine τ, Mid u p temp rejected snapshot old clone m.fs →
      Stopped u p temp rejected snapshot old clone .crash m := fun _ hm => ⟨rfl, hm⟩
  intro m hm
  cases hm with
  | settled hs =>
    rw [recover_clear hs.1]
    exact hs
  | materialized hj hs =>
    rw [recover_journal hn hM hj, recoverFrom, if_pos rfl]
    exact abort_triple hn.toApart part (fun _ hj hs => .materialized hj hs) m ⟨hj, hs⟩
  | exchanging hj hs hr =>
    rw [recover_journal hn hX hj, recoverFrom, if_neg hXM, if_pos rfl]
    cases ht : m.fs temp with
    | none =>
      rw [Act.bind_eq_of_ok (setAside_absent fuel ht)]
      exact cleaned_triple hn.toApart m ⟨hj, ht, .inl hs⟩
    | some node =>
      refine exchanged_triple hn.toApart fuel (P := fun fs =>
        Journalled u p temp rejected snapshot phaseExchanged fs ∧
          fs p.text = some (.dir old) ∧ fs rejected = none ∧ fs temp = some node)
        (fun _ h => h.1) (fun _ h => .exchanging h.1 h.2.1 h.2.2.1) (fun _ h => ⟨?_, h.2.2.1⟩)
        (fun _ h => .inl h.2.1) m ⟨hj, hs, hr, ht⟩
      rw [h.2.2.2]
      exact Option.some_ne_none _
  | unused hj hs ht =>
    rw [recover_journal hn hX hj, recoverFrom, if_neg hXM, if_pos rfl,
      Act.bind_eq_of_ok (setAside_absent fuel ht)]
    exact cleaned_triple hn.toApart m ⟨hj, ht, .inl hs⟩
  | exchanged hj hs ht hr =>
    rw [recover_journal hn hX hj, recoverFrom, if_neg hXM, if_pos rfl]
    refine exchanged_triple hn.toApart fuel (P := fun fs =>
      Journalled u p temp rejected snapshot phaseExchanged fs ∧
        fs p.text = some (.dir clone) ∧ fs temp = some (.dir old) ∧ fs rejected = none)
      (fun _ h => h.1) (fun _ h => .exchanged h.1 h.2.1 h.2.2.1 h.2.2.2)
      (fun _ h => ⟨?_, h.2.2.2⟩) (fun _ h => .inr ⟨h.2.1, h.2.2.1⟩) m ⟨hj, hs, ht, hr⟩
    rw [h.2.2.1]
    exact Option.some_ne_none _
  | displaced hj hs ht hr =>
    rw [recover_journal hn hX hj, recoverFrom, if_neg hXM, if_pos rfl,
      Act.bind_eq_of_ok (setAside_absent fuel ht)]
    exact cleaned_triple hn.toApart m ⟨hj, ht, .inr ⟨hs, hr⟩⟩
  | moving hj hs =>
    rw [recover_journal hn hV hj, recoverFrom, if_neg hVM, if_neg hVX, if_pos rfl, finishMove,
      Act.bind_eq_of_ok (lexists_present hs), Act.bind_eq_of_ok (lexists_eq _ m),
      Act.bind_eq_of_ok (lexists_eq _ m), if_pos rfl]
    exact abort_triple hn.toApart part (fun _ hj hs => .moving hj hs) m ⟨hj, hs⟩
  | between hj hs ht hr =>
    rw [recover_journal hn hV hj, recoverFrom, if_neg hVM, if_neg hVX, if_pos rfl, finishMove,
      Act.bind_eq_of_ok (lexists_absent hs), Act.bind_eq_of_ok (lexists_present ht),
      Act.bind_eq_of_ok (lexists_eq _ m), if_neg Bool.false_ne_true, if_pos ⟨hn.temp_ne, rfl⟩]
    exact ((secondRename_triple hn.toApart hstop).bind fun _ => (clearMoved_triple hn.toApart hstop).bind
      fun _ => .pure fun _ hm => hm) m ⟨hj, hs, ht, hr⟩
  | moved hj hs ht hr =>
    rw [recover_journal hn hV hj, recoverFrom, if_neg hVM, if_neg hVX, if_pos rfl, finishMove,
      Act.bind_eq_of_ok (lexists_present hs), Act.bind_eq_of_ok (lexists_eq _ m),
      Act.bind_eq_of_ok (lexists_eq _ m), if_pos rfl, Act.bind_eq_of_ok (dropClone_absent part ht)]
    exact ((clearMoved_triple hn.toApart hstop).bind fun _ => .pure fun _ hm => hm) m
      ⟨hj, hs, ht, hr⟩

/-! ## The swap -/

/-- The clone is ready, the old tree in place, the name for it free, and the journal as given. -/
def Ready (p : StatePath) (temp rejected : Path) (old clone : τ) (v : Option (Node τ))
    (fs : Fs τ) : Prop :=
  fs (markerPath p) = v ∧ fs p.text = some (.dir old) ∧ fs rejected = none ∧
    fs temp = some (.dir clone)

theorem Ready.update {v w : Option (Node τ)} {fs : Fs τ}
    (h : Ready p temp rejected old clone v fs) {path : Path} (hs : path ≠ p.text)
    (hr : path ≠ rejected) (ht : path ≠ temp) (hw : update fs path w (markerPath p) = v) :
    Ready p temp rejected old clone v (update fs path w) := by
  refine ⟨hw, ?_, ?_, ?_⟩
  · rw [update_of_ne hs.symm]
    exact h.2.1
  · rw [update_of_ne hr.symm]
    exact h.2.2.1
  · rw [update_of_ne ht.symm]
    exact h.2.2.2

section

variable (hn : Apart p temp rejected)
include hn

/-- **The journal changes phase at one instant.** -/
theorem writeMarker_triple {v : Option (Node τ)} (hv : ∀ t, v ≠ some (.dir t)) (phase : List Char)
    (hE : ∀ m : Machine τ, Ready p temp rejected old clone v m.fs → E .crash m) :
    Triple (fun m => Ready p temp rejected old clone v m.fs)
      (writeMarker u p (journal phase temp rejected snapshot))
      (fun _ m => Ready p temp rejected old clone
        (some (.file (markerText u (journal phase temp rejected snapshot)))) m.fs) E := by
  have hkeep : ∀ {fs : Fs τ} (w : Option (Node τ)), Ready p temp rejected old clone v fs →
      Ready p temp rejected old clone v (update fs (markerTemp p) w) := by
    intro fs w h
    refine h.update hn.journal_state hn.journal_rejected hn.journal_temp ?_
    rw [update_of_ne hn.journal_marker.symm]
    exact h.1
  have hopen : Triple (fun m => Ready p temp rejected old clone v m.fs)
      (effect fun fs => update fs (markerTemp p) (some (.file [])))
      (fun _ m => Ready p temp rejected old clone v m.fs) E :=
    effect_keeps hE fun fs h => hkeep _ h
  have hwrite : Triple (fun m => Ready p temp rejected old clone v m.fs)
      (effect fun fs => update fs (markerTemp p)
        (some (.file (markerText u (journal phase temp rejected snapshot)))))
      (fun _ m => Ready p temp rejected old clone v m.fs ∧ m.fs (markerTemp p) =
        some (.file (markerText u (journal phase temp rejected snapshot)))) E :=
    effect_triple (Q := fun fs => Ready p temp rejected old clone v fs ∧ fs (markerTemp p) =
        some (.file (markerText u (journal phase temp rejected snapshot)))) hE
      fun fs h => ⟨hkeep _ h, update_self ..⟩
  refine hopen.bind fun _ => hwrite.bind fun _ => ?_
  refine rename_triple (P := fun fs => Ready p temp rejected old clone v fs ∧
      fs (markerTemp p) = some (.file (markerText u (journal phase temp rejected snapshot))))
    (Q := Ready p temp rejected old clone
      (some (.file (markerText u (journal phase temp rejected snapshot)))))
    (fun m hm => hE m hm.1) (fun fs hfs hnone => ?_) (fun fs hfs t ht => hv t ?_) ?_
  · rw [hfs.2] at hnone
    cases hnone
  · rw [← hfs.1.1]
    exact ht
  · rintro fs node ⟨h, htmp⟩ hnode
    obtain rfl : node = .file (markerText u (journal phase temp rejected snapshot)) :=
      Option.some.inj (hnode.symm.trans htmp)
    have hmoved : Ready p temp rejected old clone (some (.file (markerText u
        (journal phase temp rejected snapshot)))) (update fs (markerPath p)
          (some (.file (markerText u (journal phase temp rejected snapshot))))) := by
      refine ⟨update_self .., ?_, ?_, ?_⟩
      · rw [update_of_ne hn.marker_state.symm]
        exact h.2.1
      · rw [update_of_ne hn.marker_rejected.symm]
        exact h.2.2.1
      · rw [update_of_ne hn.marker_temp.symm]
        exact h.2.2.2
    refine hmoved.update hn.journal_state hn.journal_rejected hn.journal_temp ?_
    rw [update_of_ne hn.journal_marker.symm, update_self]

section

variable (hE : ∀ m : Machine τ, Mid u p temp rejected snapshot old clone m.fs → E .crash m)
include hE

theorem twoRename_triple :
    Triple (fun m => Ready p temp rejected old clone
        (some (.file (markerText u (journal phaseMoved temp rejected snapshot)))) m.fs)
      (twoRename p temp rejected) (fun _ m => Settled p rejected old clone m.fs) E := by
  have hfirst : Triple (fun m => Ready p temp rejected old clone
        (some (.file (markerText u (journal phaseMoved temp rejected snapshot)))) m.fs)
      (rename p.text rejected)
      (fun _ m => Journalled u p temp rejected snapshot phaseMoved m.fs ∧
        m.fs p.text = none ∧ m.fs temp = some (.dir clone) ∧ m.fs rejected = some (.dir old))
      E := by
    refine rename_triple (P := Ready p temp rejected old clone _)
      (Q := fun fs => Journalled u p temp rejected snapshot phaseMoved fs ∧
        fs p.text = none ∧ fs temp = some (.dir clone) ∧ fs rejected = some (.dir old))
      (fun m hm => hE m (.moving hm.1 hm.2.1)) (fun fs hfs hnone => ?_) (fun fs hfs t ht => ?_)
      fun fs node hfs hnode => ⟨?_, update_self .., ?_, ?_⟩
    · rw [hfs.2.1] at hnone
      cases hnone
    · rw [hfs.2.2.1] at ht
      cases ht
    · rw [Journalled, update_of_ne hn.marker_state, update_of_ne hn.marker_rejected]
      exact hfs.1
    · rw [update_of_ne hn.temp_state, update_of_ne hn.rejected_temp.symm]
      exact hfs.2.2.2
    · rw [update_of_ne hn.rejected_state, update_self, ← hnode]
      exact hfs.2.1
  exact hfirst.bind fun _ => (secondRename_triple hn hE).bind fun _ => clearMoved_triple hn hE

theorem exchange_triple :
    Triple (fun m => Ready p temp rejected old clone
        (some (.file (markerText u (journal phaseExchanged temp rejected snapshot)))) m.fs)
      (do exchangePaths temp p.text; rename temp rejected; clearMarker p)
      (fun _ m => Settled p rejected old clone m.fs) E := by
  have hexchange : Triple (fun m => Ready p temp rejected old clone
        (some (.file (markerText u (journal phaseExchanged temp rejected snapshot)))) m.fs)
      (exchangePaths temp p.text)
      (fun _ m => Journalled u p temp rejected snapshot phaseExchanged m.fs ∧
        m.fs p.text = some (.dir clone) ∧ m.fs temp = some (.dir old) ∧ m.fs rejected = none)
      E := by
    refine effect_triple (P := Ready p temp rejected old clone _)
      (Q := fun fs => Journalled u p temp rejected snapshot phaseExchanged fs ∧
        fs p.text = some (.dir clone) ∧ fs temp = some (.dir old) ∧ fs rejected = none)
      (fun m hm => hE m (.exchanging hm.1 hm.2.1 hm.2.2.1)) fun fs hfs => ⟨?_, ?_, ?_, ?_⟩
    · rw [Journalled, update_of_ne hn.marker_temp, update_of_ne hn.marker_state]
      exact hfs.1
    · rw [update_of_ne hn.temp_state.symm, update_self]
      exact hfs.2.2.2
    · rw [update_self]
      exact hfs.2.1
    · rw [update_of_ne hn.rejected_temp, update_of_ne hn.rejected_state]
      exact hfs.2.2.1
  have haside : Triple (fun m => Journalled u p temp rejected snapshot phaseExchanged m.fs ∧
        m.fs p.text = some (.dir clone) ∧ m.fs temp = some (.dir old) ∧ m.fs rejected = none)
      (rename temp rejected)
      (fun _ m => Journalled u p temp rejected snapshot phaseExchanged m.fs ∧
        m.fs p.text = some (.dir clone) ∧ m.fs temp = none ∧ m.fs rejected = some (.dir old))
      E := by
    refine rename_triple (P := fun fs => Journalled u p temp rejected snapshot phaseExchanged fs ∧
        fs p.text = some (.dir clone) ∧ fs temp = some (.dir old) ∧ fs rejected = none)
      (Q := fun fs => Journalled u p temp rejected snapshot phaseExchanged fs ∧
        fs p.text = some (.dir clone) ∧ fs temp = none ∧ fs rejected = some (.dir old))
      (fun m hm => hE m (.exchanged hm.1 hm.2.1 hm.2.2.1 hm.2.2.2)) (fun fs hfs hnone => ?_)
      (fun fs hfs t ht => ?_) fun fs node hfs hnode => ⟨?_, ?_, update_self .., ?_⟩
    · rw [hfs.2.2.1] at hnone
      cases hnone
    · rw [hfs.2.2.2] at ht
      cases ht
    · rw [Journalled, update_of_ne hn.marker_temp, update_of_ne hn.marker_rejected]
      exact hfs.1
    · rw [update_of_ne hn.temp_state.symm, update_of_ne hn.rejected_state.symm]
      exact hfs.2.1
    · rw [update_of_ne hn.rejected_temp, update_self, ← hnode]
      exact hfs.2.2.1
  refine hexchange.bind fun _ => haside.bind fun _ => ?_
  exact clearMarker_triple (P := fun fs => Journalled u p temp rejected snapshot phaseExchanged fs ∧
      fs p.text = some (.dir clone) ∧ fs temp = none ∧ fs rejected = some (.dir old)) hn
    (fun m h => hE m (.displaced h.1 h.2.1 h.2.2.1 h.2.2.2)) fun _ hfs => .inr ⟨hfs.2.1, hfs.2.2.2⟩

end

/-- **The swap**, from a clone that is ready. -/
theorem swap_triple (env : Env τ) :
    Triple (fun m => Ready p temp rejected old env.clone none m.fs)
      (swap u env p snapshot temp rejected)
      (fun _ m => Settled p rejected old env.clone m.fs)
      (fun _ m => Mid u p temp rejected snapshot old env.clone m.fs) := by
  have hfile : ∀ text t, (some (.file text) : Option (Node τ)) ≠ some (.dir t) := by
    intro text t h
    cases h
  have hready : ∀ fs : Fs τ, Ready p temp rejected old env.clone none fs →
      Mid u p temp rejected snapshot old env.clone fs :=
    fun fs h => .settled ⟨h.1, .inl h.2.1⟩
  refine (writeMarker_triple hn (fun t h => (by cases h)) phaseMaterialized
    fun m hm => hready _ hm).bind fun _ => ?_
  refine .ite (fun _ => ?_) fun _ => ?_
  · refine (writeMarker_triple hn (hfile _) phaseExchanged
      fun m hm => .materialized hm.1 hm.2.1).bind fun _ => ?_
    cases env.exchange with
    | error => exact .throw fun m hm => .exchanging hm.1 hm.2.1 hm.2.2.1
    | unsupported =>
      exact (writeMarker_triple hn (hfile _) phaseMoved
        fun m hm => .exchanging hm.1 hm.2.1 hm.2.2.1).bind
        fun _ => twoRename_triple hn fun _ hm => hm
    | done => exact exchange_triple hn fun _ hm => hm
  · exact (writeMarker_triple hn (hfile _) phaseMoved fun m hm => .materialized hm.1 hm.2.1).bind
      fun _ => twoRename_triple hn fun _ hm => hm

theorem prepare_triple (env : Env τ) :
    Triple (fun m => m.fs (markerPath p) = none ∧ m.fs p.text = some (.dir old) ∧
        m.fs rejected = none)
      (prepare env temp)
      (fun _ m => Ready p temp rejected old env.clone none m.fs)
      (fun _ m => Mid u p temp rejected snapshot old env.clone m.fs) := by
  have hset : ∀ node : Option (Node τ), Triple
      (fun m => m.fs (markerPath p) = none ∧ m.fs p.text = some (.dir old) ∧ m.fs rejected = none)
      (effect fun fs => update fs temp node)
      (fun _ m => (m.fs (markerPath p) = none ∧ m.fs p.text = some (.dir old) ∧
        m.fs rejected = none) ∧ m.fs temp = node)
      (fun _ m => Mid u p temp rejected snapshot old env.clone m.fs) := by
    intro node
    refine effect_triple
      (P := fun fs => fs (markerPath p) = none ∧ fs p.text = some (.dir old) ∧ fs rejected = none)
      (Q := fun fs => (fs (markerPath p) = none ∧ fs p.text = some (.dir old) ∧
        fs rejected = none) ∧ fs temp = node)
      (fun m hm => .settled ⟨hm.1, .inl hm.2.1⟩) fun fs hfs => ⟨?_, update_self ..⟩
    rw [update_of_ne hn.marker_temp, update_of_ne hn.temp_state.symm,
      update_of_ne hn.rejected_temp]
    exact hfs
  have hkeep := fun node => (hset node).conseq (fun _ hm => hm) (fun _ _ hm => hm.1)
    (fun _ _ hm => hm)
  have hremove := (hkeep (some (.dir env.part))).bind fun _ => hkeep none
  have hthrow : Triple
      (fun m : Machine τ => m.fs (markerPath p) = none ∧ m.fs p.text = some (.dir old) ∧ m.fs rejected = none)
      (throw Stop.failed) (fun (_ : Unit) m => Ready p temp rejected old env.clone none m.fs)
      (fun _ m => Mid u p temp rejected snapshot old env.clone m.fs) :=
    Triple.throw fun m hm => .settled ⟨hm.1, .inl hm.2.1⟩
  have hdrop : Triple
      (fun m => m.fs (markerPath p) = none ∧ m.fs p.text = some (.dir old) ∧ m.fs rejected = none)
      (dropClone env.part temp)
      (fun _ m => m.fs (markerPath p) = none ∧ m.fs p.text = some (.dir old) ∧
        m.fs rejected = none)
      (fun _ m => Mid u p temp rejected snapshot old env.clone m.fs) := by
    refine look_bind (P := fun fs => fs (markerPath p) = none ∧ fs p.text = some (.dir old) ∧
      fs rejected = none) fun there => .weaken ?_ fun m hm => hm.1
    exact .ite (fun _ => hremove) fun _ => .pure fun _ hm => hm
  refine hdrop.bind fun _ => (hkeep _).bind fun _ => .ite (fun _ => hthrow) fun _ => ?_
  refine (hset (some (.dir env.clone))).bind fun _ => .ite (fun _ => ?_) fun _ => ?_
  · exact (hremove.bind fun _ => hthrow).weaken fun _ hm => hm.1
  · exact .pure fun m hm => ⟨hm.1.1, hm.1.2.1, hm.1.2.2, hm.2⟩

end

end Recovery

/-- **Whichever way a restore ends**, the old tree is in place or the swap can be taken up again,
with the name under which the old tree is to be kept. -/
theorem restore_ends {old : τ} (env : Env τ) (snapshot : Path) (hs : fs p.text = some (.dir old))
    (hm : fs (markerPath p) = none) (n : ℕ) :
    (firstFree fs (rejectedBase p env.now) env.fuel 0 = none ∧
      (restore u env p snapshot ⟨fs, n⟩).2.fs = fs) ∨
    ∃ rejected, firstFree fs (rejectedBase p env.now) env.fuel 0 = some rejected ∧
      Mid u p (siblingTemp p env.ms env.pid) rejected snapshot old env.clone
        (restore u env p snapshot ⟨fs, n⟩).2.fs := by
  have hpresent : lexists p.text (⟨fs, n⟩ : Machine τ) = (.ok true, ⟨fs, n⟩) := lexists_present hs
  rw [restore, Act.bind_eq_of_ok (recover_clear hm env.part env.fuel),
    Act.bind_eq_of_ok hpresent, if_neg (by decide)]
  cases hfree : firstFree fs (rejectedBase p env.now) env.fuel 0 with
  | none =>
    refine .inl ⟨rfl, ?_⟩
    have hsearch : freeName env.fuel (rejectedBase p env.now) (⟨fs, n⟩ : Machine τ) =
        (.error .crash, ⟨fs, n⟩) := by
      rw [freeName, Act.bind_eq_of_ok (look_eq _ _)]
      dsimp only
      rw [hfree]
      rfl
    rw [Act.bind_eq_of_error hsearch]
  | some rejected =>
    refine .inr ⟨rejected, rfl, ?_⟩
    have hn : Apart p (siblingTemp p env.ms env.pid) rejected := Apart.of_free hfree
    have hname : freeName env.fuel (rejectedBase p env.now) (⟨fs, n⟩ : Machine τ) =
        (.ok rejected, ⟨fs, n⟩) := by
      rw [freeName, Act.bind_eq_of_ok (look_eq _ _)]
      dsimp only
      rw [hfree]
      rfl
    rw [Act.bind_eq_of_ok hname]
    have hrest := (@prepare_triple _ u _ _ _ snapshot _ hn env).bind fun _ =>
      @swap_triple _ u _ _ _ _ old hn env
    refine Ends.state (hrest ⟨fs, n⟩ ⟨hm, hs, (firstFree_eq_some hfree).1⟩)
      (fun _ _ h => .settled h) (fun _ _ h => h)

/-! ## Any number of crashes -/

/-- The disk after recoveries that are each cut short after a number of effects. -/
def recoveries (u : UnicodeDb) (p : StatePath) (fuel : ℕ) (fs : Fs τ) (cuts : List (ℕ × τ)) : Fs τ :=
  cuts.foldl (fun fs cut => (recover u cut.2 fuel p ⟨fs, cut.1⟩).2.fs) fs

theorem Mid.recoveries {temp rejected snapshot : Path} {old clone : τ}
    (hn : Names u p temp rejected) (h : Mid u p temp rejected snapshot old clone fs) (fuel : ℕ)
    (cuts : List (ℕ × τ)) :
    Mid u p temp rejected snapshot old clone (recoveries u p fuel fs cuts) := by
  induction cuts generalizing fs with
  | nil => exact h
  | cons cut rest ih =>
    refine ih ?_
    exact Ends.state (recover_triple hn cut.2 fuel ⟨fs, cut.1⟩ h) (fun _ _ hs => .settled hs)
      (fun _ _ hs => hs.2)

theorem recoveries_clear (hm : fs (markerPath p) = none) (fuel : ℕ) (cuts : List (ℕ × τ)) :
    recoveries u p fuel fs cuts = fs := by
  induction cuts with
  | nil => rfl
  | cons cut rest ih =>
    show recoveries u p fuel (recover u cut.2 fuel p ⟨fs, cut.1⟩).2.fs rest = fs
    rw [recover_clear (m := ⟨fs, cut.1⟩) hm]
    exact ih

/-- What a recovery that completed has reached. -/
structure Consistent (u : UnicodeDb) (p : StatePath) (env : Env τ) (before : Fs τ) (old : τ)
    (fs : Fs τ) : Prop where
  /-- The state is the old tree, or the clone with the old tree kept under the rejected name. -/
  state : fs p.text = some (.dir old) ∨ (fs p.text = some (.dir env.clone) ∧
    ∃ rejected, firstFree before (rejectedBase p env.now) env.fuel 0 = some rejected ∧
      fs rejected = some (.dir old))
  marker : fs (markerPath p) = none
  /-- Another recovery changes nothing. -/
  again : ∀ part fuel n, recover u part fuel p ⟨fs, n⟩ = (.ok .none, ⟨fs, n⟩)

/-- **A restore is crash consistent** for a state path that `repr` only puts quotes around: it may
be cut short after any number of effects, as may any number of recoveries, and what the first
recovery that completes leaves is consistent; a recovery is only ever stopped by a crash. -/
theorem restore_crash_consistent (u : UnicodeDb) (p : StatePath) (hplain : Plain u p.text)
    (env : Env τ) (snapshot : Path) (fs : Fs τ) (old : τ) (hs : fs p.text = some (.dir old))
    (hm : fs (markerPath p) = none) (n : ℕ) (cuts : List (ℕ × τ)) (part : τ) (k : ℕ) :
    let fs' := recoveries u p env.fuel (restore u env p snapshot ⟨fs, n⟩).2.fs cuts
    (∀ outcome m, recover u part env.fuel p ⟨fs', k⟩ = (.ok outcome, m) →
      Consistent u p env fs old m.fs) ∧
    ∀ e m, recover u part env.fuel p ⟨fs', k⟩ = (.error e, m) → e = .crash := by
  intro fs'
  rcases restore_ends env snapshot hs hm n with ⟨-, hsame⟩ | ⟨rejected, hfree, hmid⟩
  · -- the restore never got a name for the old tree: nothing has happened
    have hfs' : fs' = fs := by
      show recoveries u p env.fuel (restore u env p snapshot ⟨fs, n⟩).2.fs cuts = fs
      rw [hsame]
      exact recoveries_clear hm env.fuel cuts
    rw [hfs', recover_clear (m := ⟨fs, k⟩) hm]
    refine ⟨fun outcome m h => ?_, fun e m h => (by cases h)⟩
    cases h
    exact ⟨.inl hs, hm, fun part fuel n => recover_clear (m := ⟨fs, n⟩) hm part fuel⟩
  · have hn := @Names.of_plain _ _ _ _ _ _ env.ms env.pid _ hplain hfree
    have hend := recover_triple hn part env.fuel ⟨fs', k⟩ (hmid.recoveries hn env.fuel cuts)
    refine ⟨fun outcome m h => ?_, fun e m h => ?_⟩
    · rw [h] at hend
      refine ⟨?_, hend.1, fun part fuel n => recover_clear (m := ⟨m.fs, n⟩) hend.1 part fuel⟩
      exact hend.2.imp id fun hclone => ⟨hclone.1, rejected, hfree, hclone.2⟩
    · rw [h] at hend
      exact hend.1

/-! ## A path that the journal does not bring back -/

/-- The restore of tree 1 over tree 0 by an exchange. -/
def exchangeEnv : Env ℕ where
  now := 1
  ms := 1
  pid := 1
  clone := 1
  part := 9
  copied := true
  verified := true
  allowExchange := true
  exchange := .done
  fuel := 2

def statePath (base : List Char) (h : base ≠ []) (h' : '/' ∉ base) : StatePath := ⟨[], base, h, h'⟩

/-- A disk with one tree. -/
def oneTree (p : StatePath) : Fs ℕ := fun path => if path = p.text then some (.dir 0) else none

def stPath : StatePath := statePath ['s', 't'] (by decide) (by decide)

/-- The restore is cut after the exchange, the first recovery before its first effect. -/
theorem restore_st :
    (∀ outcome m, recover .ascii 9 2 stPath
        ⟨recoveries .ascii stPath 2
          (restore .ascii exchangeEnv stPath ['n'] ⟨oneTree stPath, 9⟩).2.fs [(0, 9)], 4⟩ =
        (.ok outcome, m) → Consistent .ascii stPath exchangeEnv (oneTree stPath) 0 m.fs) ∧
    ∀ e m, recover .ascii 9 2 stPath
        ⟨recoveries .ascii stPath 2
          (restore .ascii exchangeEnv stPath ['n'] ⟨oneTree stPath, 9⟩).2.fs [(0, 9)], 4⟩ =
        (.error e, m) → e = .crash :=
  restore_crash_consistent .ascii stPath ⟨forall_mem_of_all (by decide), by decide⟩ exchangeEnv ['n'] (oneTree stPath) 0
    (by decide +kernel) (by decide +kernel) 9 [(0, 9)] 9 4

def slashPath : StatePath := statePath ['s', '\\', 't'] (by decide) (by decide)

/-- The machine after a restore that is cut short behind the exchange, and the recovery of it. -/
def slashRecovery : Except Stop Outcome × Machine ℕ :=
  recover .ascii 9 2 slashPath
    ⟨(restore .ascii exchangeEnv slashPath ['n'] ⟨oneTree slashPath, 9⟩).2.fs, 4⟩

/-- The journal names the temporary path with its backslash doubled.  The recovery finds nothing to
set aside and removes the journal, and the old tree is neither at the state path nor at the
rejected one. -/
theorem recover_forgets_old_tree :
    slashRecovery = (.ok .cleaned, slashRecovery.2) ∧
      ¬ Consistent .ascii slashPath exchangeEnv (oneTree slashPath) 0 slashRecovery.2.fs := by
  have hfree : firstFree (oneTree slashPath) (rejectedBase slashPath 1) 2 0 =
      some (rejectedBase slashPath 1) := by decide +kernel
  have hstate : slashRecovery.2.fs slashPath.text ≠ some (.dir 0) := by decide +kernel
  have hrejected : slashRecovery.2.fs (rejectedBase slashPath 1) ≠ some (.dir 0) := by
    decide +kernel
  refine ⟨Prod.ext (by rfl) rfl, fun hc => ?_⟩
  rcases hc.state with h | ⟨-, rejected, hr, h⟩
  · exact hstate h
  · have heq : rejectedBase slashPath 1 = rejected := Option.some.inj (hfree.symm.trans hr)
    rw [← heq] at h
    exact hrejected h

end SnapSwap
