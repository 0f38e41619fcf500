/-
# Palette repair

The publisher of presentation snapshots replaces every on-colour that misses its contrast floor
by black or white (`readable_producer_palette`); readers refuse a palette with a pair below its
floor (`_validate_palette`).  Contrast is computed over the reals.

Black reaches `(L + 0.05) / 0.05` and white `1.05 / (L + 0.05)` against a background of luminance
`L`; the product of the two is `21`, so the larger is above `4.5` (`readableOnColor_contrast`).  The
pairs have different on-colours and no background is an on-colour, so the loop repairs each pair as
if it were alone (`repair_foreground`).
-/
import Mathlib.Analysis.SpecialFunctions.Pow.Real

namespace Presentation

/-! ## Contrast -/

/-- `#rrggbb` -/
structure Color where
  (r g b : Fin 256)

/-- `_linear_srgb` -/
noncomputable def linearSrgb (channel : Fin 256) : ℝ :=
  let c := (channel : ℝ) / 255
  if c ≤ 0.04045 then c / 12.92 else ((c + 0.055) / 1.055) ^ (2.4 : ℝ)

noncomputable def relativeLuminance (color : Color) : ℝ :=
  0.2126 * linearSrgb color.r + 0.7152 * linearSrgb color.g + 0.0722 * linearSrgb color.b

noncomputable def contrastRatio (a b : Color) : ℝ :=
  let la := relativeLuminance a
  let lb := relativeLuminance b
  (max la lb + 0.05) / (min la lb + 0.05)

/-- `_BLACK` -/
def black : Color := ⟨0, 0, 0⟩

/-- `_WHITE` -/
def white : Color := ⟨255, 255, 255⟩

noncomputable def readableOnColor (background : Color) : Color :=
  if contrastRatio background black ≥ contrastRatio background white then black else white

theorem linearSrgb_mem (channel : Fin 256) : 0 ≤ linearSrgb channel ∧ linearSrgb channel ≤ 1 := by
  have hle : (channel : ℝ) ≤ 255 := by exact_mod_cast Nat.le_of_lt_succ channel.isLt
  have hc : (0 : ℝ) ≤ (channel : ℝ) / 255 := by positivity
  have hc1 : (channel : ℝ) / 255 ≤ 1 := by linarith
  unfold linearSrgb
  generalize (channel : ℝ) / 255 = c at hc hc1
  norm_num only
  split_ifs with h
  · constructor <;> linarith
  · have hbase : 0 ≤ (c + 11 / 200) / (211 / 200) := by positivity
    exact ⟨Real.rpow_nonneg hbase _, Real.rpow_le_one hbase (by linarith) (by norm_num)⟩

theorem relativeLuminance_mem (color : Color) :
    0 ≤ relativeLuminance color ∧ relativeLuminance color ≤ 1 := by
  obtain ⟨hr, hr'⟩ := linearSrgb_mem color.r
  obtain ⟨hg, hg'⟩ := linearSrgb_mem color.g
  obtain ⟨hb, hb'⟩ := linearSrgb_mem color.b
  unfold relativeLuminance
  constructor <;> linarith

theorem relativeLuminance_black : relativeLuminance black = 0 := by
  norm_num [relativeLuminance, black, linearSrgb]

theorem relativeLuminance_white : relativeLuminance white = 1 := by
  have h : linearSrgb 255 = 1 := by norm_num [linearSrgb]
  norm_num [relativeLuminance, white, h]

theorem readableOnColor_contrast (background : Color) :
    4.5 ≤ contrastRatio background (readableOnColor background) := by
  obtain ⟨h0, h1⟩ := relativeLuminance_mem background
  have hpos : 0 < relativeLuminance background + 0.05 := by linarith
  have hblack : contrastRatio background black = (relativeLuminance background + 0.05) / 0.05 := by
    simp only [contrastRatio, relativeLuminance_black, max_eq_left h0, min_eq_right h0, zero_add]
  have hwhite : contrastRatio background white = 1.05 / (relativeLuminance background + 0.05) := by
    simp only [contrastRatio, relativeLuminance_white, max_eq_right h1, min_eq_left h1]
    norm_num
  unfold readableOnColor
  split_ifs with h
  · rw [hblack, hwhite, ge_iff_le, div_le_div_iff₀ hpos (by norm_num)] at h
    rw [hblack, le_div_iff₀ (by norm_num)]
    nlinarith
  · rw [hblack, hwhite, not_le, div_lt_div_iff₀ (by norm_num) hpos] at h
    rw [hwhite, le_div_iff₀ hpos]
    nlinarith

/-! ## The pairs -/

/-- `COLOR_KEYS` -/
inductive ColorKey where
  | mPrimary | mOnPrimary | mSecondary | mOnSecondary | mTertiary | mOnTertiary | mError | mOnError
  | mSurface | mOnSurface | mSurfaceVariant | mOnSurfaceVariant | mOutline | mShadow | mHover
  | mOnHover
  deriving DecidableEq

/-- A complete palette. -/
abbrev Palette := ColorKey → Color

/-- A pair and its floor. -/
structure Rule where
  (background foreground : ColorKey)
  floor : ℝ

/-- `CONTRAST_PAIRS_TEXT` with `CONTRAST_TEXT`, then `CONTRAST_PAIRS_SECONDARY` with
`CONTRAST_SECONDARY`. -/
noncomputable def contrastPairs : List Rule :=
  [⟨.mSurface, .mOnSurface, 4.5⟩, ⟨.mPrimary, .mOnPrimary, 4.5⟩,
    ⟨.mSecondary, .mOnSecondary, 4.5⟩, ⟨.mTertiary, .mOnTertiary, 4.5⟩,
    ⟨.mError, .mOnError, 4.5⟩, ⟨.mHover, .mOnHover, 4.5⟩,
    ⟨.mSurfaceVariant, .mOnSurfaceVariant, 3⟩]

/-- The pair misses its floor. -/
def Rule.Missed (rule : Rule) (colors : Palette) : Prop :=
  contrastRatio (colors rule.background) (colors rule.foreground) < rule.floor

open Classical in
/-- One round of the loop of `readable_producer_palette`, with the names of the replaced keys. -/
noncomputable def repair (acc : Palette × List ColorKey) (rule : Rule) :
    Palette × List ColorKey :=
  if rule.Missed acc.1 then
    (Function.update acc.1 rule.foreground (readableOnColor (acc.1 rule.background)),
      acc.2 ++ [rule.foreground])
  else acc

noncomputable def readableProducerPalette (colors : Palette) : Palette × List ColorKey :=
  contrastPairs.foldl repair (colors, [])

/-- `palette contrast a/b is ratio:1, need floor:1` -/
structure SnapshotError where
  (a b : ColorKey)
  (ratio need : ℝ)

open Classical in
/-- `_validate_palette` of a complete palette -/
noncomputable def validatePalette (colors : Palette) : Except SnapshotError Unit :=
  forM contrastPairs fun rule =>
    if rule.Missed colors then
      .error ⟨rule.background, rule.foreground,
        contrastRatio (colors rule.background) (colors rule.foreground), rule.floor⟩
    else .ok ()

/-! ## Repairs do not meet -/

variable {rules : List Rule} {colors : Palette}

open Classical in
/-- The on-colour of a pair that is repaired alone. -/
noncomputable def Rule.repaired (rule : Rule) (colors : Palette) : Color :=
  if rule.Missed colors then readableOnColor (colors rule.background) else colors rule.foreground

theorem repair_self (acc : Palette × List ColorKey) (rule : Rule) :
    (repair acc rule).1 rule.foreground = rule.repaired acc.1 := by
  unfold repair Rule.repaired
  split_ifs
  · exact Function.update_self ..
  · rfl

theorem repair_of_ne (acc : Palette × List ColorKey) {rule : Rule} {key : ColorKey}
    (h : key ≠ rule.foreground) : (repair acc rule).1 key = acc.1 key := by
  unfold repair
  split_ifs
  · exact Function.update_of_ne h _ _
  · rfl

theorem repair_frame {key : ColorKey} (h : ∀ rule ∈ rules, key ≠ rule.foreground)
    (acc : Palette × List ColorKey) : (rules.foldl repair acc).1 key = acc.1 key := by
  induction rules generalizing acc with
  | nil => rfl
  | cons rule rules ih =>
    rw [List.foldl_cons, ih fun r hr => h r (List.mem_cons_of_mem _ hr)]
    exact repair_of_ne acc (h rule List.mem_cons_self)

/-- No on-colour is repaired twice, and none is a background. -/
structure Apart (rules : List Rule) : Prop where
  foregrounds : rules.Pairwise fun r r' => r.foreground ≠ r'.foreground
  backgrounds : ∀ r ∈ rules, ∀ r' ∈ rules, r.background ≠ r'.foreground

theorem contrastPairs_apart : Apart contrastPairs := by
  constructor
  · simp [contrastPairs]
  · simp [contrastPairs]

theorem repair_foreground (h : Apart rules) {rule : Rule} (hmem : rule ∈ rules)
    (acc : Palette × List ColorKey) :
    (rules.foldl repair acc).1 rule.foreground = rule.repaired acc.1 := by
  induction rules generalizing acc with
  | nil => cases hmem
  | cons r rules ih =>
    obtain ⟨hhead, htail⟩ := List.pairwise_cons.mp h.foregrounds
    rw [List.foldl_cons]
    rcases List.mem_cons.mp hmem with rfl | hmem'
    · rw [repair_frame hhead, repair_self]
    · have hrest : Apart rules := ⟨htail, fun a ha b hb =>
        h.backgrounds a (List.mem_cons_of_mem _ ha) b (List.mem_cons_of_mem _ hb)⟩
      have hfg := repair_of_ne acc (hhead rule hmem').symm
      have hbg := repair_of_ne acc (h.backgrounds rule hmem r List.mem_cons_self)
      rw [ih hrest hmem']
      simp only [Rule.repaired, Rule.Missed, hfg, hbg]
      congr

theorem repair_eq_self {l : List ColorKey} (h : ∀ rule ∈ rules, ¬ rule.Missed colors) :
    rules.foldl repair (colors, l) = (colors, l) := by
  induction rules with
  | nil => rfl
  | cons rule rules ih =>
    rw [List.foldl_cons, repair, if_neg (h rule List.mem_cons_self)]
    exact ih fun r hr => h r (List.mem_cons_of_mem _ hr)

theorem background_kept {rule : Rule} (h : rule ∈ contrastPairs) :
    (readableProducerPalette colors).1 rule.background = colors rule.background :=
  repair_frame (contrastPairs_apart.backgrounds rule h) _

theorem floor_le {rule : Rule} (h : rule ∈ contrastPairs) : rule.floor ≤ 4.5 := by
  simp only [contrastPairs, List.mem_cons, List.not_mem_nil, or_false] at h
  rcases h with rfl | rfl | rfl | rfl | rfl | rfl | rfl <;> norm_num

theorem not_missed {rule : Rule} (h : rule ∈ contrastPairs) :
    ¬ rule.Missed (readableProducerPalette colors).1 := by
  rw [Rule.Missed, background_kept h, readableProducerPalette,
    repair_foreground contrastPairs_apart h, Rule.repaired]
  split_ifs with hmissed
  · rw [not_lt]
    exact (floor_le h).trans (readableOnColor_contrast _)
  · exact hmissed

theorem validatePalette_ok (h : ∀ rule ∈ contrastPairs, ¬ rule.Missed colors) :
    validatePalette colors = .ok () := by
  unfold validatePalette
  generalize contrastPairs = rules at h ⊢
  induction rules with
  | nil => rfl
  | cons rule rules ih =>
    rw [List.forM_cons, if_neg (h rule List.mem_cons_self)]
    exact ih fun r hr => h r (List.mem_cons_of_mem _ hr)

/-- The repaired palette is accepted; only on-colours of pairs that missed their floor differ; no
background does; and there is nothing left to repair. -/
theorem readableProducerPalette_repairs (colors : Palette) :
    validatePalette (readableProducerPalette colors).1 = .ok () ∧
      (∀ key, (readableProducerPalette colors).1 key ≠ colors key →
        ∃ rule ∈ contrastPairs, rule.foreground = key ∧ rule.Missed colors) ∧
      (∀ rule ∈ contrastPairs,
        (readableProducerPalette colors).1 rule.background = colors rule.background) ∧
      readableProducerPalette (readableProducerPalette colors).1 =
        ((readableProducerPalette colors).1, []) := by
  refine ⟨validatePalette_ok fun _ h => not_missed h, fun key hkey => ?_,
    fun _ h => background_kept h, repair_eq_self fun _ h => not_missed h⟩
  by_cases hfg : ∃ rule ∈ contrastPairs, rule.foreground = key
  · obtain ⟨rule, hrule, rfl⟩ := hfg
    refine ⟨rule, hrule, rfl, ?_⟩
    by_contra hkept
    apply hkey
    rw [readableProducerPalette, repair_foreground contrastPairs_apart hrule, Rule.repaired,
      if_neg hkept]
  · exact absurd (repair_frame (fun rule hrule heq => hfg ⟨rule, hrule, heq.symm⟩) _) hkey

end Presentation
