import SignalArcade.Paper.CurveMath

/-!
# What the quotes round
-/

namespace SignalArcade.Paper

open Checked

variable {X Y R B f n : ℤ} {q : CurveQuote}

/-! ### Rounding up is monotone -/

theorem ceilQuot_le_ceilQuot {m n d : ℤ} (h : m ≤ n) (hd : 0 < d) : ceilQuot m d ≤ ceilQuot n d :=
  (ceilQuot_le_iff hd).mpr (h.trans (le_ceilQuot_mul hd))

theorem ceilQuot_anti {n d e : ℤ} (hn : 0 ≤ n) (hd : 0 < d) (h : d ≤ e) : ceilQuot n e ≤ ceilQuot n d := by
  refine (ceilQuot_le_iff (hd.trans_le h)).mpr ((le_ceilQuot_mul hd).trans ?_)
  exact mul_le_mul_of_nonneg_left h (ceilQuot_nonneg hn hd)

/-! ### The curve input of a buy -/

theorem affordable_iff {c : ℤ} (hf : 0 ≤ f) : c + ceilQuot (c * f) 10000 ≤ B ↔ c ≤ B * 10000 / (10000 + f) := by
  have hfee : c + ceilQuot (c * f) 10000 ≤ B ↔ c * f ≤ (B - c) * 10000 := by
    rw [← ceilQuot_le_iff (by norm_num)]
    omega
  rw [hfee, Int.le_ediv_iff_mul_le (by omega)]
  constructor <;> intro h <;> linarith

/-- **The loop stops at its first candidate.** -/
theorem adjustInput_candidate (hB : 0 < B) (hf : 0 ≤ f) :
    (adjustInput B f (B * 10000 / (10000 + f)).toNat : ℤ) = B * 10000 / (10000 + f) := by
  have hnonneg : 0 ≤ B * 10000 / (10000 + f) := Int.ediv_nonneg (by omega) (by omega)
  obtain ⟨c, hc⟩ := Int.eq_ofNat_of_zero_le hnonneg
  rw [hc, Int.toNat_natCast]
  cases c with
  | zero => rfl
  | succ c =>
    have haffordable : ((c + 1 : ℕ) : ℤ) + ceilQuot ((c + 1 : ℕ) * f) 10000 ≤ B := (affordable_iff hf).mpr hc.ge
    rw [adjustInput, if_pos haffordable]

section

variable (h : BuyQuoted X Y R B f n q)
include h

theorem BuyQuoted.curve_candidate (hB : 0 < B) :
    q.curveSolLamports = B * 10000 / (10000 + f) := by
  rw [h.curve_eq, adjustInput_candidate hB h.fee_range.1]

/-- **No larger input is affordable.** -/
theorem BuyQuoted.curve_greatest (hB : 0 < B) :
    IsGreatest {c : ℤ | c + ceilQuot (c * f) 10000 ≤ B} q.curveSolLamports := by
  rw [h.curve_candidate hB]
  exact ⟨(affordable_iff h.fee_range.1).mpr le_rfl, fun c hc => (affordable_iff h.fee_range.1).mp hc⟩

theorem BuyQuoted.units_lt : q.tokenUnits ≤ min R (X - 1) := by
  have hsol : 0 < Y + q.curveSolLamports := add_pos h.sol_pos h.curve_pos
  have hleft : 0 < ceilQuot (X * Y) (Y + q.curveSolLamports) := ceilQuot_pos (mul_pos h.token_pos h.sol_pos) hsol
  rw [h.units_eq]
  refine min_le_min_left _ ?_
  omega

theorem BuyQuoted.units_mono {B' : ℤ} {q' : CurveQuote} (h' : BuyQuoted X Y R B' f n q')
    (hB : 0 < B) (hle : B ≤ B') : q.tokenUnits ≤ q'.tokenUnits := by
  have hcurve : q.curveSolLamports ≤ q'.curveSolLamports := by
    rw [h.curve_candidate hB, h'.curve_candidate (hB.trans_le hle)]
    refine Int.ediv_le_ediv ?_ ?_
    · have hfee := h.fee_range.1
      omega
    · omega
  have hleft : ceilQuot (X * Y) (Y + q'.curveSolLamports) ≤ ceilQuot (X * Y) (Y + q.curveSolLamports) := by
    refine ceilQuot_anti (mul_pos h.token_pos h.sol_pos).le (add_pos h.sol_pos h.curve_pos) ?_
    omega
  rw [h.units_eq, h'.units_eq]
  refine min_le_min_left _ ?_
  omega

end

/-- **A buy spends exactly the largest affordable curve input.** -/
theorem quoteBuy_largest (hB : 0 < B) (hf : 0 ≤ f ∧ f ≤ 10000) :
    (adjustInput B f (B * 10000 / (10000 + f)).toNat : ℤ) = B * 10000 / (10000 + f) ∧
    ∀ X Y R n q, quoteBuy X Y R B f n = .ok q →
      IsGreatest {c : ℤ | c + ceilQuot (c * f) 10000 ≤ B} q.curveSolLamports ∧
      q.walletSolLamports - n ≤ B ∧ q.tokenUnits ≤ min R (X - 1) ∧
      ∀ B' q', B ≤ B' → quoteBuy X Y R B' f n = .ok q' → q.tokenUnits ≤ q'.tokenUnits := by
  refine ⟨adjustInput_candidate hB hf.1, fun X Y R n q hq => ?_⟩
  have h := quoteBuy_ok hq
  refine ⟨h.curve_greatest hB, ?_, h.units_lt, fun B' q' hle hq' => h.units_mono (quoteBuy_ok hq') hB hle⟩
  have hbudget := h.within_budget
  have hwallet := h.wallet_eq
  omega

/-- 99 are bought for 100. -/
theorem quoteBuy_largest_sample :
    quoteBuy 1000 1000 1000 100 100 5 = .ok ⟨90, 99, 1, 5, 105, 1 / 10⟩ ∧
      IsGreatest {c : ℤ | c + ceilQuot (c * 100) 10000 ≤ 100} 99 := by
  have hq : quoteBuy 1000 1000 1000 100 100 5 = .ok ⟨90, 99, 1, 5, 105, 1 / 10⟩ := by decide +kernel
  exact ⟨hq, ((quoteBuy_largest (by decide) (by decide)).2 1000 1000 1000 5 _ hq).1⟩

/-! ### A sale -/

variable {t lp : ℤ} {parts : Option (List ℤ)} {real : ℤ}

def feesOf (gross : ℤ) (rates : List ℤ) : ℤ := (rates.map fun part => ceilQuot (gross * part) 10000).sum

theorem quoteSell_real (h : quoteSell X Y t f n (some real) parts lp = .ok q) :
    q.curveSolLamports - ceilQuot (q.curveSolLamports * lp) 10000 ≤ real := by
  simp only [quoteSell, mapM_ceilDiv, bind_eq_ok, raiseIf_eq_ok, pure_eq_ok] at h
  obtain ⟨_, -, _, -, _, -, _, -, s, -, _, -, _, hreal, fees, -, _, -, rfl⟩ := h
  simp only [checkRealQuote, bind_eq_ok, raiseIf_eq_ok] at hreal
  obtain ⟨_, -, retained, hretained, hle⟩ := hreal
  rw [ceilDiv_of_pos (by norm_num), Except.ok.injEq] at hretained
  subst hretained
  exact not_lt.mp hle

theorem SellQuoted.fees_erase (h : SellQuoted X Y t f n parts lp q) :
    feesOf q.curveSolLamports ((feeParts f parts).erase lp) =
      q.protocolFeeLamports - ceilQuot (q.curveSolLamports * lp) 10000 := by
  have hzero : ceilQuot (q.curveSolLamports * 0) 10000 = 0 := by rw [mul_zero]; rfl
  have hin : lp ∈ feeParts f parts ∨ lp = 0 := by
    have hc := h.components
    match parts with
    | none =>
      simp only [componentsConsistent, decide_eq_true_eq] at hc
      exact .inr hc
    | some [] =>
      simp only [componentsConsistent, decide_eq_true_eq, List.not_mem_nil, or_false] at hc
      exact .inr hc.2.2
    | some (a :: l) =>
      simp only [componentsConsistent, decide_eq_true_eq] at hc
      exact hc.2.2.symm
  rw [h.protocol_eq]
  by_cases hmem : lp ∈ feeParts f parts
  · have hsum := (List.perm_cons_erase hmem).map fun part => ceilQuot (q.curveSolLamports * part) 10000
    have htotal := hsum.sum_eq
    rw [List.map_cons, List.sum_cons] at htotal
    rw [htotal]
    unfold feesOf
    omega
  · obtain rfl : lp = 0 := hin.resolve_left hmem
    rw [List.erase_of_not_mem hmem, hzero, sub_zero]
    rfl

theorem SellQuoted.curve_lt (h : SellQuoted X Y t f n parts lp q) : q.curveSolLamports < Y := by
  have hleft : 0 < ceilQuot (X * Y) (X + t) :=
    ceilQuot_pos (mul_pos h.token_pos h.sol_pos) (add_pos h.token_pos h.units_pos)
  have hcurve := h.curve_eq
  omega

theorem SellQuoted.curve_mono {t' f' n' lp' : ℤ} {parts' : Option (List ℤ)} {q' : CurveQuote}
    (h : SellQuoted X Y t f n parts lp q) (h' : SellQuoted X Y t' f' n' parts' lp' q') (hle : t ≤ t') :
    q.curveSolLamports ≤ q'.curveSolLamports := by
  have hleft : ceilQuot (X * Y) (X + t') ≤ ceilQuot (X * Y) (X + t) := by
    refine ceilQuot_anti (mul_pos h.token_pos h.sol_pos).le (add_pos h.token_pos h.units_pos) ?_
    omega
  have hcurve := h.curve_eq
  have hcurve' := h'.curve_eq
  omega

theorem ceilQuot_twice {k d e : ℤ} (hd : 0 < d) (hle : d ≤ e) :
    ceilQuot k e ≤ ceilQuot (d * ceilQuot k d) e ∧ ceilQuot (d * ceilQuot k d) e ≤ ceilQuot k e + 1 := by
  have he : 0 < e := hd.trans_le hle
  have hreach := le_ceilQuot_mul (n := k) hd
  have hbelow := ceilQuot_mul_lt (n := k) hd
  constructor
  · refine ceilQuot_le_ceilQuot ?_ he
    linarith
  · refine (ceilQuot_le_iff he).mpr ?_
    have hreach' := le_ceilQuot_mul (n := k) he
    linarith

/-- **A sale in two parts** yields as much as one sale, or one lamport less. -/
theorem SellQuoted.split {a b f₁ f₂ f₃ n₁ n₂ n₃ lp₁ lp₂ lp₃ : ℤ} {parts₁ parts₂ parts₃ : Option (List ℤ)}
    {q₁ q₂ q₃ : CurveQuote} (h₁ : SellQuoted X Y a f₁ n₁ parts₁ lp₁ q₁)
    (h₂ : SellQuoted (X + a) (Y - q₁.curveSolLamports) b f₂ n₂ parts₂ lp₂ q₂)
    (h₃ : SellQuoted X Y (a + b) f₃ n₃ parts₃ lp₃ q₃) :
    q₁.curveSolLamports + q₂.curveSolLamports ≤ q₃.curveSolLamports ∧
      q₃.curveSolLamports - 1 ≤ q₁.curveSolLamports + q₂.curveSolLamports := by
  have hX := h₁.token_pos
  have ha := h₁.units_pos
  have hb := h₂.units_pos
  have hcurve₁ := h₁.curve_eq
  have hcurve₂ := h₂.curve_eq
  have hcurve₃ := h₃.curve_eq
  have hleft : Y - q₁.curveSolLamports = ceilQuot (X * Y) (X + a) := by omega
  rw [hleft] at hcurve₂
  obtain ⟨hlower, hupper⟩ := ceilQuot_twice (k := X * Y) (d := X + a) (e := X + a + b) (by omega) (by omega)
  rw [show X + (a + b) = X + a + b by ring] at hcurve₃
  omega

/-- **A sale is solvent, and its fees are accounted for.** -/
theorem quoteSell_solvent (hq : quoteSell X Y t f n (some real) parts lp = .ok q) :
    q.walletSolLamports + n + feesOf q.curveSolLamports ((feeParts f parts).erase lp) ≤ real ∧
    q.walletSolLamports + q.protocolFeeLamports + n = q.curveSolLamports ∧
    0 < q.curveSolLamports ∧ q.curveSolLamports < Y ∧
    (∀ t' f' n' real' parts' lp' q', t ≤ t' → quoteSell X Y t' f' n' real' parts' lp' = .ok q' →
      q.curveSolLamports ≤ q'.curveSolLamports) ∧
    ∀ b f₂ n₂ real₂ parts₂ lp₂ q₂ f₃ n₃ real₃ parts₃ lp₃ q₃,
      quoteSell (X + t) (Y - q.curveSolLamports) b f₂ n₂ real₂ parts₂ lp₂ = .ok q₂ →
      quoteSell X Y (t + b) f₃ n₃ real₃ parts₃ lp₃ = .ok q₃ →
      q.curveSolLamports + q₂.curveSolLamports ≤ q₃.curveSolLamports ∧
        q₃.curveSolLamports - 1 ≤ q.curveSolLamports + q₂.curveSolLamports := by
  have h := quoteSell_ok hq
  have hwallet := h.wallet_eq
  refine ⟨?_, by omega, h.curve_pos, h.curve_lt, fun t' f' n' real' parts' lp' q' hle hq' =>
    h.curve_mono (quoteSell_ok hq') hle, fun b f₂ n₂ real₂ parts₂ lp₂ q₂ f₃ n₃ real₃ parts₃ lp₃ q₃ hq₂ hq₃ =>
    h.split (quoteSell_ok hq₂) (quoteSell_ok hq₃)⟩
  have hreal := quoteSell_real hq
  rw [h.fees_erase]
  omega

/-- A sale whose fee has three components, of which one stays in the pool, and the same in two parts: a lamport
is lost. -/
theorem quoteSell_solvent_sample :
    ∃ q q₂ q₃ : CurveQuote, quoteSell 1000 100000 100 100 5 (some 9080) (some [25, 50, 25]) 25 = .ok q ∧
      quoteSell (1000 + 100) (100000 - q.curveSolLamports) 77 100 5 none none 0 = .ok q₂ ∧
      quoteSell 1000 100000 (100 + 77) 100 5 none none 0 = .ok q₃ ∧
      q₃.curveSolLamports - 1 = q.curveSolLamports + q₂.curveSolLamports ∧
      q₃.curveSolLamports - 1 ≤ q.curveSolLamports + q₂.curveSolLamports := by
  have hq : quoteSell 1000 100000 100 100 5 (some 9080) (some [25, 50, 25]) 25 =
      .ok ⟨100, 9090, 92, 5, 8993, 91 / 1000⟩ := by decide +kernel
  have hq₂ : quoteSell (1000 + 100) (100000 - 9090) 77 100 5 none none 0 = .ok ⟨77, 5947, 60, 5, 5882, 4167 / 63637⟩ := by
    decide +kernel
  have hq₃ : quoteSell 1000 100000 (100 + 77) 100 5 none none 0 = .ok ⟨177, 15038, 151, 5, 14882, 1331 / 8850⟩ := by
    decide +kernel
  exact ⟨_, _, _, hq, hq₂, hq₃, by decide,
    ((quoteSell_solvent hq).2.2.2.2.2 77 100 5 none none 0 _ 100 5 none none 0 _ hq₂ hq₃).2⟩

end SignalArcade.Paper
