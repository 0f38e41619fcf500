/-
# Filling the temporary directory of an export

The steps of `promote_export` between the scan and the rename.  The payload is scanned; then every
change is inside the temporary directory (`Staged`), whose content is tracked exactly: the files of
the payload, the receipt, and up to names of surfaces what `_emit_lineage_surfaces` writes.

A surface is written to a temporary name first, so that a payload file of that name would be lost,
and a temporary file that cannot be unlinked stays.
-/
import QDistro.ExportFaults
import QDistro.StagingDir

namespace DispExport

open EffectRules InodeFs List Function

/-! ## The payload -/

/-- A file with its bytes under a name in a directory. -/
def FileAt (fs : Fs) (d : ℕ) (name : String) (bytes : List UInt8) : Prop :=
  ∃ i, fs.entry d name = some i ∧ fs.node i = some (.file bytes)

/-- The payload has only regular files with allowed names, within the caps. -/
structure PayloadOk (c : ExportCall) (fs : Fs) : Prop where
  entries : ∀ name i, fs.entry c.payloadDir name = some i → sanitizeFilename name = true ∧
    ∃ bytes, fs.node i = some (.file bytes) ∧ bytes.length ≤ c.caps.maxFileBytes
  total : ∃ es, fs.node c.payloadDir = some (.dir es) ∧ es.keys.length ≤ c.caps.maxFiles ∧
    (es.entries.map fun e => (fs.bytes e.2).length).sum ≤ c.caps.maxTotalBytes

/-- The unlinking of a surface's temporary file has failed. -/
def isStuckSurface (f : Fault Site) : Bool := f.site = .unlinkSurface && f.stuck

def surfaceStuck (w : World Site) : Bool := w.failed.any isStuckSurface

/-- No file of the payload has the temporary name of a surface. -/
def NamesApart (c : ExportCall) (fs : Fs) : Prop :=
  ∀ p bytes, FileAt fs c.payloadDir p bytes → p ≠ surfaceTemp c.pid lineageManifestName ∧
    ∀ q bytes', FileAt fs c.payloadDir q bytes' → p ≠ surfaceTemp c.pid (sidecarName q)

/-! ## The scan -/

variable {c : ExportCall} {fs₀ : Fs}

/-- The bytes of a file of the payload. -/
def payloadBytes (c : ExportCall) (fs : Fs) (name : String) : List UInt8 :=
  match fs.entry c.payloadDir name with
  | some i => fs.bytes i
  | none => []

theorem FileAt.payloadBytes_eq {name : String} {bytes : List UInt8}
    (h : FileAt fs₀ c.payloadDir name bytes) : payloadBytes c fs₀ name = bytes := by
  obtain ⟨i, hi, hnode⟩ := h
  simp only [payloadBytes, hi, Fs.bytes, hnode]

/-- What the scan knows of the names it has passed. -/
structure ScanInv (c : ExportCall) (fs : Fs) (before : List String) (acc : Scanned) : Prop where
  names : acc.1.map Prod.fst = before
  count : acc.1.length ≤ c.caps.maxFiles
  sizes : acc.1.map Prod.snd = before.map fun name => (payloadBytes c fs name).length
  total : acc.2 = (acc.1.map Prod.snd).sum
  within : acc.2 ≤ c.caps.maxTotalBytes
  safe : ∀ name ∈ before, sanitizeFilename name = true ∧
    ∃ bytes, FileAt fs c.payloadDir name bytes ∧ bytes.length ≤ c.caps.maxFileBytes

theorem scanEntry_spec (before : List String) (name : String) (acc : Scanned) :
    Triple (fun w => w.fs = fs₀ ∧ ScanInv c fs₀ before acc) (scanEntry c.caps c.payloadDir acc name)
      (fun acc' w => w.fs = fs₀ ∧ ScanInv c fs₀ (before ++ [name]) acc') (fun _ w => w.fs = fs₀) := by
  unfold scanEntry
  refine .ite (fun _ => .throw fun _ h => h.1) fun hcount => ?_
  refine .ite (fun _ => .throw fun _ h => h.1) fun hsafe => ?_
  refine .bind (Q := fun n w => (w.fs = fs₀ ∧ ScanInv c fs₀ before acc) ∧
    ∃ i, fs₀.entry c.payloadDir name = some i ∧ fs₀.node i = some n) ?_ fun n => ?_
  · refine .mapError (look_rule (fun w w' e hw hfs _ _ => hfs.trans hw.1) ?_)
    intro w w' k n hw hlook hfs _ _
    refine ⟨⟨hfs.trans hw.1, hw.2⟩, ?_⟩
    rw [hw.1] at hlook
    split at hlook
    · next n' hn =>
      cases hlook
      obtain ⟨i, hi, hnode⟩ := Option.bind_eq_some_iff.1 hn
      exact ⟨i, hi, hnode⟩
    · cases hlook
  · cases n with
    | file bytes =>
      refine .ite (fun _ => .throw fun _ h => h.1.1) fun hsize => ?_
      refine .ite (fun _ => .throw fun _ h => h.1.1) fun htotal => ?_
      refine .pure ?_
      rintro w ⟨⟨hfs, hinv⟩, hfile⟩
      have hbytes : payloadBytes c fs₀ name = bytes := FileAt.payloadBytes_eq hfile
      refine ⟨hfs, ?_, ?_, ?_, ?_, ?_, ?_⟩
      · simp [hinv.names]
      · simp only [length_append, length_singleton]
        omega
      · simp [hinv.sizes, hbytes]
      · simp [hinv.total]
      · simpa using htotal
      · intro x hx
        rcases mem_append.1 hx with hx | hx
        · exact hinv.safe x hx
        · obtain rfl := mem_singleton.1 hx
          exact ⟨by simpa using hsafe, bytes, hfile, by omega⟩
    | _ => exact .throw fun _ h => h.1.1

/-- What the scan returns. -/
structure Validated (c : ExportCall) (fs : Fs) (validated : List (String × ℕ)) : Prop where
  ok : PayloadOk c fs
  nodup : (validated.map Prod.fst).Nodup
  mem : ∀ name, name ∈ validated.map Prod.fst ↔ ∃ bytes, FileAt fs c.payloadDir name bytes

theorem ScanInv.validated {es : PyDict String ℕ} {acc : Scanned}
    (hes : fs₀.node c.payloadDir = some (.dir es))
    (h : ScanInv c fs₀ (es.keys.insertionSort (· ≤ ·)) acc) : Validated c fs₀ acc.1 := by
  have hperm := perm_insertionSort (· ≤ ·) es.keys
  have hkey : ∀ name i, fs₀.entry c.payloadDir name = some i → name ∈ es.keys := by
    intro name i hi
    rw [Fs.entry_of_node hes] at hi
    exact mem_map_of_mem ((PyDict.get?_eq_some_iff _ _ _).1 hi)
  refine ⟨⟨?_, es, hes, ?_, ?_⟩, ?_, ?_⟩
  · intro name i hi
    obtain ⟨hsafe, bytes, ⟨j, hj, hnode⟩, hlen⟩ := h.safe name (hperm.mem_iff.2 (hkey name i hi))
    rw [hi] at hj
    obtain rfl := Option.some.inj hj
    exact ⟨hsafe, bytes, hnode, hlen⟩
  · calc es.keys.length = (acc.1.map Prod.fst).length := by rw [h.names, hperm.length_eq]
      _ = acc.1.length := length_map _
      _ ≤ c.caps.maxFiles := h.count
  · have hsum : (es.entries.map fun e => (fs₀.bytes e.2).length) =
        es.keys.map fun name => (payloadBytes c fs₀ name).length := by
      rw [PyDict.keys, map_map]
      refine map_congr_left fun e he => ?_
      have hentry : fs₀.entry c.payloadDir e.1 = some e.2 := by
        rw [Fs.entry_of_node hes]
        exact (PyDict.get?_eq_some_iff _ _ _).2 he
      simp only [comp_apply, payloadBytes, hentry]
    rw [hsum, ← (hperm.map _).sum_nat, ← h.sizes, ← h.total]
    exact h.within
  · rw [h.names]
    exact hperm.nodup_iff.2 es.nodup
  · intro name
    rw [h.names]
    constructor
    · intro hname
      obtain ⟨-, bytes, hfile, -⟩ := h.safe name hname
      exact ⟨bytes, hfile⟩
    · rintro ⟨bytes, i, hi, -⟩
      exact hperm.mem_iff.2 (hkey name i hi)

theorem scanPayload_spec :
    Triple (fun w => w.fs = fs₀) (scanPayload c.caps c.payloadDir)
      (fun validated w => w.fs = fs₀ ∧ Validated c fs₀ validated) (fun _ w => w.fs = fs₀) := by
  unfold scanPayload
  refine .bind (Q := fun names w => w.fs = fs₀ ∧
    ∃ es, fs₀.node c.payloadDir = some (.dir es) ∧ names = es.keys) ?_ fun names => ?_
  · refine .mapError (look_rule (fun w w' e hw hfs _ _ => hfs.trans hw) ?_)
    intro w w' k names hw hlook hfs _ _
    refine ⟨hfs.trans hw, ?_⟩
    rw [hw] at hlook
    split at hlook
    · next es hes =>
      cases hlook
      exact ⟨es, hes, rfl⟩
    · cases hlook
  · refine .of_forall ?_
    rintro w ⟨hfs, es, hes, rfl⟩
    refine .weaken (O := fun w => w.fs = fs₀ ∧ ScanInv c fs₀ [] ([], 0)) ?_ ?_
    · refine .bind (.foldlM (I := fun before acc (w : World Site) => w.fs = fs₀ ∧
        ScanInv c fs₀ before acc) (fun before x after acc _ => scanEntry_spec before x acc) _)
        fun acc => .pure ?_
      intro w hw
      exact ⟨hw.1, hw.2.validated hes⟩
    · rintro w' rfl
      exact ⟨hfs, rfl, Nat.zero_le _, rfl, rfl, Nat.zero_le _, by simp⟩

/-! ## The copy -/

variable {base : Fs} {t : ℕ} {m : String → Option (List UInt8)} {name : String}

/-- The directory under construction holds some files. -/
def Boxed (base : Fs) (t : ℕ) (fs : Fs) : Prop := Near base t (fun _ => none) (fun _ => True) fs

theorem Boxed.of_near {S : String → Prop} {fs : Fs} (h : Near base t m S fs) : Boxed base t fs := by
  obtain ⟨m', hm, -⟩ := h
  exact ⟨m', hm, fun _ h => absurd trivial h⟩

theorem Boxed.of_staged {fs : Fs} (h : Staged base t m fs) : Boxed base t fs :=
  Boxed.of_near (.of_staged (S := fun _ => True) h)

theorem keep {α : Type} {x : Export α} (hx : Quiet x) (R : Fs → Prop) :
    Triple (fun w => R w.fs) x (fun _ w => R w.fs) (fun _ w => R w.fs) :=
  hx.rule fun _ _ h hfs _ => hfs ▸ h

/-- The directory holds the files of `m` and an open file with some bytes. -/
def Filling (base : Fs) (t : ℕ) (m : String → Option (List UInt8)) (name : String) (fd : ℕ)
    (bytes : List UInt8) (fs : Fs) : Prop :=
  Staged base t (Function.update m name (some bytes)) fs ∧ fs.entry t name = some fd

theorem Filling.boxed {fd : ℕ} {bytes : List UInt8} {fs : Fs}
    (h : Filling base t m name fd bytes fs) : Boxed base t fs :=
  Boxed.of_staged h.1

theorem Filling.node_eq {fd : ℕ} {bytes : List UInt8} {fs : Fs}
    (h : Filling base t m name fd bytes fs) : fs.node fd = some (.file bytes) := by
  obtain ⟨bs, hbs, hnode, -⟩ := h.1.of_entry h.2
  rw [update_self] at hbs
  obtain rfl := Option.some.inj hbs
  exact hnode

theorem createFile_spec (ht : t < base.next) {site : Site} :
    Triple (fun w => Staged base t m w.fs) (addAt site t name (.file []))
      (fun fd w => Filling base t m name fd [] w.fs) (fun _ w => Boxed base t w.fs) := by
  refine addAt_rule (fun w w' e hw hfs _ _ => hfs ▸ Boxed.of_staged hw) ?_
  intro w w' es hw hes _ hfs _ _
  rw [hfs]
  refine ⟨hw.add ht hes [], ?_⟩
  rw [Fs.entry_set_dir, PyDict.get?_insert_self]

theorem writeAll_staged (ht : t < base.next) {site : Site} {fd : ℕ} (fuel : ℕ) :
    ∀ before data : List UInt8, data.length ≤ fuel →
      Triple (fun w => Filling base t m name fd before w.fs) (writeAll site fd fuel data)
        (fun _ w => Filling base t m name fd (before ++ data) w.fs)
        (fun _ w => Boxed base t w.fs) := by
  induction fuel with
  | zero =>
    intro before data hlen
    obtain rfl := eq_nil_of_length_eq_zero (Nat.le_zero.1 hlen)
    refine .pure fun w hw => ?_
    rwa [append_nil]
  | succ fuel ih =>
    intro before data hlen
    unfold writeAll
    refine .ite (fun hdata => .pure fun w hw => ?_) fun hdata => ?_
    · rwa [hdata, append_nil]
    · refine .bind (Q := fun k w => 0 < k ∧ k ≤ data.length ∧
        Filling base t m name fd (before ++ data.take k) w.fs) ?_ fun k => ?_
      · refine .mapError (write_rule (fun w w' e hw hfs _ _ => hfs ▸ hw.boxed) ?_)
        intro w w' k hw hpos hle hfs _ _
        have hbytes : w.fs.bytes fd = before := by rw [Fs.bytes, hw.node_eq]
        obtain ⟨_, -, -, hlow, -⟩ := hw.1.of_entry hw.2
        refine ⟨hpos (length_pos_iff.2 hdata), hle, ?_, ?_⟩
        · rw [hfs, hbytes]
          have hstaged := hw.1.write ht hw.2 (before ++ data.take k)
          rwa [update_idem] at hstaged
        · rw [hfs, ← hw.2]
          exact Fs.entry_congr (Fs.node_set_of_ne (by omega) _) _
      · refine .of_forall ?_
        rintro w ⟨hpos, hle, hw⟩
        have hrest : (data.drop k).length ≤ fuel := by
          rw [length_drop]
          omega
        refine (ih (before ++ data.take k) (data.drop k) hrest).conseq
          (fun w' (h : w' = w) => h ▸ hw) (fun _ w' h => ?_) (fun _ _ h => h)
        rwa [append_assoc, take_append_drop] at h

theorem read_prefix (src : List UInt8) (offset n : ℕ) :
    let rest := (src.drop offset).take chunkSize
    let chunk := rest.take (moved n rest.length)
    chunk <+: src.drop offset ∧ (chunk = [] → src.length ≤ offset) := by
  intro rest chunk
  refine ⟨( take_prefix _ _).trans ( take_prefix _ _), fun hnil => ?_⟩
  have hlen : chunk.length = 0 := by rw [hnil]; rfl
  have hrest : rest.length = min chunkSize (src.length - offset) := by
    simp only [rest, length_take, length_drop]
  have hchunk : chunk.length = min (moved n rest.length) rest.length := length_take
  have hpos : 0 < rest.length → 0 < moved n rest.length := by
    intro hrest
    unfold moved
    split <;> omega
  have hsize : 0 < chunkSize := by decide
  omega

/-- The file that is copied, seen from the directory under construction. -/
structure Source (base : Fs) (t sfd : ℕ) (src : List UInt8) : Prop where
  file : base.node sfd = some (.file src)
  old : sfd < base.next
  outside : sfd ≠ t

theorem Source.bytes_eq {sfd : ℕ} {src : List UInt8} {fs : Fs} (h : Source base t sfd src)
    (hm : Staged base t m fs) : fs.bytes sfd = src := by
  rw [Fs.bytes, hm.outer sfd h.old h.outside, h.file]

theorem streamFrom_staged (ht : t < base.next) {sfd dfd maxBytes : ℕ} {src : List UInt8}
    (hsrc : Source base t sfd src) (fuel : ℕ) :
    ∀ offset, offset ≤ src.length → src.length < offset + fuel →
      Triple (fun w => Filling base t m name dfd (src.take offset) w.fs)
        (streamFrom sfd dfd maxBytes fuel offset)
        (fun rest w => rest = src.drop offset ∧ Filling base t m name dfd src w.fs)
        (fun _ w => Boxed base t w.fs) := by
  induction fuel with
  | zero =>
    intro offset hle hlt
    omega
  | succ fuel ih =>
    intro offset hle hlt
    unfold streamFrom
    refine .bind (Q := fun chunk w => chunk <+: src.drop offset ∧
      (chunk = [] → src.length ≤ offset) ∧ Filling base t m name dfd (src.take offset) w.fs) ?_
      fun chunk => ?_
    · refine .mapError (look_rule (fun w w' e hw hfs _ _ => hfs ▸ hw.boxed) ?_)
      intro w w' n chunk hw hlook hfs _ _
      rw [hsrc.bytes_eq hw.1] at hlook
      obtain rfl := Except.ok.inj hlook
      obtain ⟨hpre, hend⟩ := read_prefix src offset n
      exact ⟨hpre, hend, hfs ▸ hw⟩
    · refine .ite (fun hnil => .pure ?_) fun hne => ?_
      · rintro w ⟨-, hend, hw⟩
        have hall := hend hnil
        rw [take_of_length_le hall] at hw
        exact ⟨(drop_of_length_le hall).symm, hw⟩
      · refine .ite (fun _ => .throw fun w hw => hw.2.2.boxed) fun _ => ?_
        refine .of_forall ?_
        rintro w ⟨⟨rest, hrest⟩, -, hw⟩
        have htake : src.take offset ++ chunk = src.take (offset + chunk.length) := by
          rw [take_add, ← hrest, take_left]
        have hdrop : src.drop offset = chunk ++ src.drop (offset + chunk.length) := by
          rw [← drop_drop, ← hrest, drop_left]
        have hpos : 0 < chunk.length := length_pos_iff.2 hne
        have hlen : chunk.length ≤ src.length - offset := by
          rw [← length_drop, ← hrest, length_append]
          omega
        refine .bind ((writeAll_staged ht chunk.length (src.take offset) chunk
          (Nat.le_refl _)).weaken fun w' h => h ▸ hw) fun _ => ?_
        rw [htake]
        refine .bind (ih (offset + chunk.length) (by omega) (by omega)) fun rest' => ?_
        refine .pure ?_
        rintro w' ⟨rfl, hw'⟩
        exact ⟨hdrop.symm, hw'⟩

theorem copyOne_spec (ht : t < base.next) {sfd size : ℕ} {src : List UInt8}
    (hsrc : Source base t sfd src) (hpay : c.payloadDir < base.next) (hout : c.payloadDir ≠ t)
    (hentry : base.entry c.payloadDir name = some sfd) :
    Triple (fun w => Staged base t m w.fs) (copyOne c t name size)
      (fun bytes w => bytes = src ∧ Staged base t (update m name (some src)) w.fs)
      (fun _ w => Boxed base t w.fs) := by
  have hclose : ∀ (site : Site) (R : Fs → Prop), Triple (fun w => R w.fs) (raw (plain site))
      (fun _ w => R w.fs) (fun _ w => R w.fs) := fun site R => keep (quiet_raw (quiet_look _ _)) R
  unfold copyOne
  refine .bind (Q := fun fd w => fd = sfd ∧ Staged base t m w.fs) ?_ fun fd => ?_
  · refine .mapError (look_rule (fun w w' e hw hfs _ _ => hfs ▸ Boxed.of_staged hw) ?_)
    intro w w' n fd hw hlook hfs _ _
    rw [Fs.entry_congr (hw.outer _ hpay hout), hentry] at hlook
    dsimp only at hlook
    split at hlook
    · cases hlook
    · exact ⟨(Except.ok.inj hlook).symm, hfs ▸ hw⟩
  · refine .of_forall ?_
    rintro w ⟨rfl, hw⟩
    refine .weaken (O := fun w => Staged base t m w.fs) ?_ fun w' h => h ▸ hw
    refine .ensuring (Q := fun bytes w => bytes = src ∧
      Staged base t (update m name (some src)) w.fs) (E := fun _ w => Boxed base t w.fs)
      ?_ (fun bytes => ?_) (fun e => hclose _ _)
    · refine .bind (Q := fun n w => Staged base t m w.fs) ?_ fun n => ?_
      · exact (keep (quiet_raw (quiet_look _ _)) (Staged base t m)).conseq (fun _ h => h)
          (fun _ _ h => h) fun _ _ h => .of_staged h
      · cases n with
        | file _ =>
          refine .bind (.mapError (createFile_spec ht)) fun dfd => ?_
          refine .ensuring (Q := fun bytes w => bytes = src ∧
            Staged base t (update m name (some src)) w.fs)
            (E := fun _ w => Boxed base t w.fs) ?_ (fun bytes => ?_) (fun e => hclose _ _)
          · refine .bind ((keep (quiet_maybeFchown _) (Filling base t m name dfd [])).conseq
              (fun _ h => h) (fun _ _ h => h) fun _ _ h => h.boxed) fun _ => ?_
            unfold streamToFd
            refine .get_bind fun w hw => ?_
            rw [hsrc.bytes_eq hw.1]
            refine .bind ((streamFrom_staged ht hsrc (src.length + 1) 0 (Nat.zero_le _)
              (by omega)).weaken fun w' h => h ▸ hw) fun bytes => ?_
            refine .bind (Q := fun _ w => bytes = src ∧
              Staged base t (update m name (some src)) w.fs) ?_ fun _ =>
              Triple.pure fun _ h => h
            refine (hclose _ fun fs => bytes = src ∧ Filling base t m name dfd src fs).conseq
              (fun _ h => h) (fun _ _ h => ⟨h.1, h.2.1⟩) fun _ _ h => h.2.boxed
          · exact (hclose _ fun fs => bytes = src ∧ Staged base t _ fs).conseq (fun _ h => h)
              (fun _ _ h => h) fun _ _ h => .of_staged h.2
        | _ => exact .throw fun _ h => .of_staged h
    · exact (hclose _ fun fs => bytes = src ∧ Staged base t _ fs).conseq (fun _ h => h)
        (fun _ _ h => h) fun _ _ h => .of_staged h.2

/-! ## The files and the receipt -/

/-- The payload's files under some names. -/
def copied (c : ExportCall) (fs : Fs) (entries : List (String × ℕ)) : String → Option (List UInt8) :=
  fun name => if name ∈ entries.map Prod.fst then some (payloadBytes c fs name) else none

theorem copied_append (entries : List (String × ℕ)) (e : String × ℕ) :
    copied c fs₀ (entries ++ [e]) =
      update (copied c fs₀ entries) e.1 (some (payloadBytes c fs₀ e.1)) := by
  funext name
  by_cases hname : name = e.1
  · simp [hname, copied]
  · have hmem : name ∈ (entries ++ [e]).map Prod.fst ↔ name ∈ entries.map Prod.fst := by
      rw [map_append, mem_append]
      simp [hname]
    rw [update_of_ne hname, copied, copied, if_congr hmem rfl rfl]

/-- What the receipt says of a file. -/
def receiptEntry (c : ExportCall) (fs : Fs) (e : String × ℕ) : String × ℕ × String :=
  (e.1, (payloadBytes c fs e.1).length, c.sha256 (payloadBytes c fs e.1))

/-- The payload, seen from the directory under construction. -/
structure Beside (c : ExportCall) (fs : Fs) (base : Fs) (t : ℕ) : Prop where
  old : c.payloadDir < base.next
  outside : c.payloadDir ≠ t
  file : ∀ name bytes, FileAt fs c.payloadDir name bytes → ∃ i, base.entry c.payloadDir name = some i ∧
    Source base t i bytes

theorem copyFiles_spec (ht : t < base.next) (hpay : Beside c fs₀ base t)
    {validated : List (String × ℕ)}
    (hfiles : ∀ e ∈ validated, ∃ bytes, FileAt fs₀ c.payloadDir e.1 bytes) :
    Triple (fun w => Staged base t (fun _ => none) w.fs) (validated.foldlM (copyFile c t) [])
      (fun files w => files = validated.map (receiptEntry c fs₀) ∧
        Staged base t (copied c fs₀ validated) w.fs) (fun _ w => Boxed base t w.fs) := by
  refine (Triple.foldlM (I := fun before files (w : World Site) =>
    files = before.map (receiptEntry c fs₀) ∧ Staged base t (copied c fs₀ before) w.fs) ?_ []).weaken
    fun w hw => ⟨rfl, hw⟩
  intro before e after files hval
  obtain ⟨bytes, hfile⟩ := hfiles e (by simp [hval])
  obtain ⟨i, hi, hsrc⟩ := hpay.file e.1 bytes hfile
  obtain rfl := hfile.payloadBytes_eq
  refine Triple.of_forall ?_
  rintro w ⟨rfl, hw⟩
  unfold copyFile
  refine Triple.bind ((copyOne_spec ht hsrc hpay.old hpay.outside hi).weaken fun w' h => h ▸ hw)
    fun copy => Triple.pure ?_
  rintro w' ⟨rfl, hw'⟩
  rw [copied_append]
  exact ⟨by simp [receiptEntry], hw'⟩

theorem writeReceiptAt_spec (ht : t < base.next) (data : List UInt8) :
    Triple (fun w => Staged base t m w.fs) (writeReceiptAt c.chown t data)
      (fun _ w => Staged base t (update m receiptName (some data)) w.fs)
      (fun _ w => Boxed base t w.fs) := by
  unfold writeReceiptAt
  refine .bind (.mapError (createFile_spec ht)) fun fd => ?_
  refine .ensuring (Q := fun _ w => Staged base t (update m receiptName (some data)) w.fs)
    (E := fun _ w => Boxed base t w.fs) ?_ (fun _ => ?_) (fun e => ?_)
  · refine .bind ((keep (quiet_maybeFchown _) (Filling base t m receiptName fd [])).conseq
      (fun _ h => h) (fun _ _ h => h) fun _ _ h => h.boxed) fun _ => ?_
    refine .bind (writeAll_staged ht data.length [] data (Nat.le_refl _)) fun _ => ?_
    exact (keep (quiet_raw (quiet_look _ _)) (Filling base t m receiptName fd data)).conseq
      (fun _ h => h) (fun _ _ h => h.1) fun _ _ h => h.boxed
  · exact (keep (quiet_raw (quiet_look _ _)) (Staged base t _)).conseq (fun _ h => h)
      (fun _ _ h => h) fun _ _ h => .of_staged h
  · exact keep (quiet_raw (quiet_look _ _)) (Boxed base t)

/-! ## The surfaces -/

theorem surfaceTemp_ne (pid : ℕ) (b : String) : surfaceTemp pid b ≠ b := by
  intro h
  have hlen := length_surfaceTemp pid b
  rw [h] at hlen
  omega

section Surface

variable {S : String → Prop} {b : String}

theorem publishSurface_near (ht : t < base.next) (hb : S b) (htemp : S (surfaceTemp c.pid b))
    (data : List UInt8) :
    Triple (fun w => Near base t m S w.fs)
      (publishSurface c.chown t (surfaceTemp c.pid b) b data)
      (fun _ w => Near base t m S w.fs ∧ w.fs.entry t (surfaceTemp c.pid b) = none)
      (fun _ w => Near base t m S w.fs) := by
  unfold publishSurface
  refine .bind (Q := fun fd w => Near base t m S w.fs ∧
    w.fs.entry t (surfaceTemp c.pid b) = some fd) (.mapError ?_) fun fd => ?_
  · unfold createSurface
    refine .tryCatch (Near.addAt_rule ht htemp) fun e => ?_
    refine .ite (fun _ => ?_) fun _ => .throw fun _ h => h
    refine .bind ((Near.unlinkAt_rule ht htemp).conseq (fun _ h => h) (fun _ _ h => h.1)
      fun _ _ h => h.1) fun _ => Near.addAt_rule ht htemp
  · refine .bind (Q := fun _ w => Near base t m S w.fs) ?_ fun _ =>
      Triple.mapError (Near.renameAt_rule ht (surfaceTemp_ne _ _) htemp hb)
    refine .ensuring (Q := fun _ w => Near base t m S w.fs)
      (E := fun _ w => Near base t m S w.fs) ?_ (fun _ => keep (quiet_raw (quiet_look _ _)) _)
      (fun _ => keep (quiet_raw (quiet_look _ _)) _)
    refine .bind ((keep (quiet_maybeFchown _) fun fs => Near base t m S fs ∧
      fs.entry t (surfaceTemp c.pid b) = some fd).conseq (fun _ h => h) (fun _ _ h => h)
      fun _ _ h => h.1) fun _ => ?_
    refine .bind (Q := fun _ w => Near base t m S w.fs)
      (.mapError ((Near.write_rule ht htemp data).conseq (fun _ h => h) (fun _ _ h => h.1)
        fun _ _ h => h)) fun _ => keep (quiet_raw (quiet_look _ _)) _

/-- A surface is in place or nothing of it is there, unless its temporary file could not be
unlinked. -/
theorem writeFileAtomic_near (ht : t < base.next) (hb : S b)
    (hfree : m (surfaceTemp c.pid b) = none ∨ ∀ x, S x) (data : List UInt8) :
    Triple (fun w => Near base t m S w.fs) (writeFileAtomic c.pid c.chown t b data)
      (fun _ w => Near base t m S w.fs)
      (fun _ w => Near base t m S w.fs ∨ Boxed base t w.fs ∧ surfaceStuck w = true) := by
  -- without the temporary file, the names in `S` are the only ones that changed
  have hsettle : ∀ fs : Fs, Near base t m (fun x => S x ∨ x = surfaceTemp c.pid b) fs →
      fs.entry t (surfaceTemp c.pid b) = none → Near base t m S fs := by
    intro fs hnear hnone
    rcases hfree with hm | hall
    · exact hnear.settle hm hnone
    · exact hnear.mono fun x _ => hall x
  have hpublish := publishSurface_near (c := c) (m := m) (S := fun x => S x ∨ x = surfaceTemp c.pid b)
    ht (.inl hb) (.inr rfl) data
  unfold writeFileAtomic
  refine .bind (Q := fun _ w => Near base t m S w.fs) ?_ fun _ =>
    (keep (quiet_raw (quiet_look _ _)) (Near base t m S)).conseq (fun _ h => h) (fun _ _ h => h)
      fun _ _ h => .inl h
  refine .tryCatch (E := fun _ w => Near base t m (fun x => S x ∨ x = surfaceTemp c.pid b) w.fs)
    (hpublish.conseq (fun w hw => hw.mono fun _ => .inl) (fun _ w hw => hsettle w.fs hw.1 hw.2)
      fun _ _ h => h) fun e => ?_
  refine .bind (Q := fun _ w =>
    Near base t m S w.fs ∨ Boxed base t w.fs ∧ surfaceStuck w = true) ?_ fun _ =>
    Triple.throw fun _ h => h
  refine .tryCatch (E := fun _ w =>
    Near base t m S w.fs ∨ Boxed base t w.fs ∧ surfaceStuck w = true) (.mapError ?_)
    fun _ => .pure fun _ h => h
  refine (Near.unlinkAt_rule ht (.inr rfl)).conseq (fun _ h => h)
    (fun _ w hw => .inl (hsettle w.fs hw.1 hw.2)) ?_
  rintro e' w ⟨hnear, hnone | ⟨f, hf, hsite, hstuck⟩⟩
  · exact .inl (hsettle w.fs hnear hnone)
  · refine .inr ⟨Boxed.of_near hnear, any_eq_true.2 ⟨f, hf, ?_⟩⟩
    simp [isStuckSurface, hsite, hstuck]

theorem emitSurface_spec (ht : t < base.next) (hb : S b)
    (hfree : m (surfaceTemp c.pid b) = none ∨ ∀ x, S x) (data : Option (List UInt8)) :
    Triple (fun w => Near base t m S w.fs) (emitSurface c t b data)
      (fun _ w => Near base t m S w.fs)
      (fun _ w => Near base t m S w.fs ∨ Boxed base t w.fs ∧ surfaceStuck w = true) := by
  cases data with
  | none => exact .throw fun _ h => .inl h
  | some data => exact writeFileAtomic_near ht hb hfree data

theorem quiet_setXattr (d : ℕ) (name : String) : Quiet (setXattr d name) :=
  quiet_bestEffort ((quiet_look _ _).bind fun _ => quiet_look _ _)

theorem emitLineageSurfaces_spec (ht : t < base.next) {files : List (String × ℕ × String)}
    (hS : ∀ b, (b = lineageManifestName ∨ ∃ f ∈ files, b = sidecarName f.1) →
      S b ∧ (m (surfaceTemp c.pid b) = none ∨ ∀ x, S x))
    (ctx : (String → String → Option (List UInt8)) ×
      (List (String × ℕ × String) → Option (List UInt8))) :
    Triple (fun w => Near base t m S w.fs) (emitLineageSurfaces c ctx t files)
      (fun _ w => Near base t m S w.fs)
      (fun _ w => Near base t m S w.fs ∨ Boxed base t w.fs ∧ surfaceStuck w = true) := by
  unfold emitLineageSurfaces
  refine .bind (Q := fun _ w => Near base t m S w.fs) ?_ fun _ => ?_
  · refine .foldlM (I := fun _ _ (w : World Site) => Near base t m S w.fs) ?_ ()
    intro before f after _ hfiles
    obtain ⟨hb, hfree⟩ := hS (sidecarName f.1) (.inr ⟨f, by simp [hfiles], rfl⟩)
    refine .bind (emitSurface_spec ht hb hfree _) fun _ => ?_
    exact (keep (quiet_setXattr _ _) (Near base t m S)).conseq (fun _ h => h) (fun _ _ h => h)
      fun _ _ h => .inl h
  · obtain ⟨hb, hfree⟩ := hS lineageManifestName (.inl rfl)
    exact emitSurface_spec ht hb hfree _

end Surface

/-- The names of surfaces. -/
def SurfaceName (c : ExportCall) (fs : Fs) (x : String) : Prop :=
  x = lineageManifestName ∨ ∃ p bytes, FileAt fs c.payloadDir p bytes ∧ x = sidecarName p

theorem not_surfaceName_of_safe {x : String} (h : sanitizeFilename x = true) :
    ¬SurfaceName c fs₀ x := by
  simp only [sanitizeFilename, Bool.and_eq_true, decide_eq_true_eq, Bool.not_eq_true'] at h
  rintro (hx | ⟨p, bytes, -, rfl⟩)
  · exact h.1.2 hx
  · have hsuffix : lineageSidecarSuffix.toList.isSuffixOf (sidecarName p).toList = true := by
      rw [isSuffixOf_iff_suffix, sidecarName, String.toList_append]
      exact suffix_append _ _
    rw [hsuffix] at h
    exact absurd h.2 (by decide)

theorem ne_receiptName_of_safe {x : String} (h : sanitizeFilename x = true) : x ≠ receiptName := by
  simp only [sanitizeFilename, Bool.and_eq_true, decide_eq_true_eq] at h
  exact h.1.1.2

theorem not_surfaceName_receiptName : ¬SurfaceName c fs₀ receiptName := by
  rintro (hx | ⟨p, bytes, -, hp⟩)
  · exact absurd hx (by decide)
  · have hlen := congrArg String.length hp
    have hreceipt : receiptName.length = 13 := by decide
    rw [length_sidecarName, hreceipt] at hlen
    omega

theorem surfaceTemp_ne_receiptName {b : String} (pid : ℕ) (h : SurfaceName c fs₀ b) :
    surfaceTemp pid b ≠ receiptName := by
  intro heq
  have hlen := length_surfaceTemp pid b
  have hreceipt : receiptName.length = 13 := by decide
  rw [heq, hreceipt] at hlen
  rcases h with rfl | ⟨p, bytes, -, rfl⟩
  · have hmanifest : lineageManifestName.length = 28 := by decide
    omega
  · rw [length_sidecarName] at hlen
    omega

/-- The payload and its receipt. -/
def whole (c : ExportCall) (fs : Fs) (validated : List (String × ℕ)) :
    String → Option (List UInt8) :=
  Function.update (copied c fs validated) receiptName
    (some (c.receiptBytes (validated.map (receiptEntry c fs))))

/-- The directory is ready to be placed: where no payload file has the name of a surface's temporary
file, and none of these is left, it holds the payload, the receipt and surfaces. -/
def Ready (c : ExportCall) (fs₀ base : Fs) (t : ℕ) (validated : List (String × ℕ))
    (v : Fs × Bool) : Prop :=
  Boxed base t v.1 ∧ (c.receiptCtx = none ∨ NamesApart c fs₀ → v.2 = false →
    Near base t (whole c fs₀ validated) (SurfaceName c fs₀) v.1)

theorem whole_surfaceTemp {validated : List (String × ℕ)} (hval : Validated c fs₀ validated)
    (hapart : NamesApart c fs₀) {b : String} (hb : SurfaceName c fs₀ b) :
    whole c fs₀ validated (surfaceTemp c.pid b) = none := by
  rw [whole, update_of_ne (surfaceTemp_ne_receiptName c.pid hb), copied, if_neg]
  intro hmem
  obtain ⟨bytes, hfile⟩ := (hval.mem _).1 hmem
  obtain ⟨hmanifest, hsidecar⟩ := hapart _ bytes hfile
  rcases hb with rfl | ⟨q, bytes', hq, rfl⟩
  · exact hmanifest rfl
  · exact hsidecar q bytes' hq rfl

theorem exportSurfaces_spec (ht : t < base.next) {validated : List (String × ℕ)}
    (hval : Validated c fs₀ validated) {E : Failure → World Site → Prop} :
    Triple (fun w => Staged base t (whole c fs₀ validated) w.fs)
      (exportSurfaces c t (validated.map (receiptEntry c fs₀)))
      (fun _ w => Ready c fs₀ base t validated (w.fs, surfaceStuck w)) E := by
  unfold exportSurfaces
  cases hctx : c.receiptCtx with
  | none => exact .pure fun w hw => ⟨Boxed.of_staged hw, fun _ _ => .of_staged hw⟩
  | some ctx =>
    have hname : ∀ b, (b = lineageManifestName ∨
        ∃ f ∈ validated.map (receiptEntry c fs₀), b = sidecarName f.1) → SurfaceName c fs₀ b := by
      rintro b (hb | ⟨f, hf, rfl⟩)
      · exact .inl hb
      · obtain ⟨e, he, rfl⟩ := mem_map.1 hf
        obtain ⟨bytes, hfile⟩ := (hval.mem e.1).1 (mem_map_of_mem he)
        exact .inr ⟨e.1, bytes, hfile, rfl⟩
    by_cases hapart : NamesApart c fs₀
    · have hemit := emitLineageSurfaces_spec (c := c) (S := SurfaceName c fs₀) ht
        (fun b hb => ⟨hname b hb, .inl (whole_surfaceTemp hval hapart (hname b hb))⟩) ctx
      refine .bind ((hemit.weaken fun w hw => .of_staged hw).attempt) fun done => ?_
      refine .pure fun w hw => ?_
      cases done with
      | ok _ => exact ⟨Boxed.of_near hw, fun _ _ => hw⟩
      | error _ =>
        rcases hw with hw | ⟨hbox, hstuck⟩
        · exact ⟨Boxed.of_near hw, fun _ _ => hw⟩
        · refine ⟨hbox, fun _ hfree => ?_⟩
          rw [hstuck] at hfree
          cases hfree
    · have hemit : Triple (fun w => Near base t (whole c fs₀ validated) (fun _ => True) w.fs)
          (emitLineageSurfaces c ctx t (validated.map (receiptEntry c fs₀)))
          (fun _ w => Near base t (whole c fs₀ validated) (fun _ => True) w.fs)
          (fun _ w => Near base t (whole c fs₀ validated) (fun _ => True) w.fs ∨
            Boxed base t w.fs ∧ surfaceStuck w = true) :=
        emitLineageSurfaces_spec ht (fun b _ => ⟨trivial, .inr fun _ => trivial⟩) ctx
      have hnot : ¬(some ctx = none ∨ NamesApart c fs₀) := by simp [hapart]
      refine .bind ((hemit.weaken fun w hw => .of_staged hw).attempt) fun done => ?_
      refine .pure fun w hw => ?_
      have hbox : Boxed base t w.fs := by
        cases done with
        | ok _ => exact .of_near hw
        | error _ => exact hw.elim Boxed.of_near And.left
      exact ⟨hbox, fun h => absurd (hctx ▸ h) hnot⟩

end DispExport
