import KubeClient.Proofs.QuantityRendering

/-!
# Equality of amounts

Amounts are compared by their normal forms, and a normal form is all that a hasher and the canonical
text see of an amount.

* `Quantity.equivalence_beq` : equality is an equivalence;
* `Quantity.feed_eq_iff` : a hasher is fed the same words for equal amounts, and for no others;
* `Quantity.canonical_congr` : equal amounts of one format have one canonical text;
* `Quantity.equality_is_exact` : all of it, for amounts of any parts that the words hold.
-/

namespace KubeClient.Quantity

variable {a b : Quantity}

theorem beq_iff_normal_eq : (a == b) = true ↔ a.normal = b.normal :=
  beq_iff_value_eq.trans normal_eq_iff.symm

theorem equivalence_beq : Equivalence fun a b : Quantity => (a == b) = true where
  refl _ := beq_iff_value_eq.mpr rfl
  symm h := beq_iff_value_eq.mpr (beq_iff_value_eq.mp h).symm
  trans h h' := beq_iff_value_eq.mpr ((beq_iff_value_eq.mp h).trans (beq_iff_value_eq.mp h'))

/-! ### Hashing -/

/-- No two integers in the range of a word are the same word. -/
theorem ofInt_inj_of_fits {w : Nat} {m n : Int} (hw : 0 < w) (hm : Fits w m) (hn : Fits w n)
    (h : BitVec.ofInt w m = BitVec.ofInt w n) : m = n := by
  have hint := congrArg BitVec.toInt h
  rwa [BitVec.toInt_ofInt_eq_self hw hm.1 hm.2, BitVec.toInt_ofInt_eq_self hw hn.1 hn.2] at hint

/-- A hasher that keeps what it is fed. -/
def recording : Hasher (List (BitVec 128) × List (BitVec 32)) where
  wide state word := (state.1 ++ [word], state.2)
  narrow state word := (state.1, state.2 ++ [word])

theorem feed_eq_iff :
    (∀ (σ : Type) (h : Hasher σ) (state : σ), a.feed h state = b.feed h state) ↔
      a.normal = b.normal := by
  constructor
  · intro h
    have hrecorded := h _ recording ([], [])
    simp only [feed, recording, List.nil_append, Prod.mk.injEq, List.cons.injEq, and_true]
      at hrecorded
    obtain ⟨hsig, hexp⟩ := hrecorded
    obtain ⟨hsa, hea, -⟩ := normal_ranges a
    obtain ⟨hsb, heb, -⟩ := normal_ranges b
    exact Prod.ext (ofInt_inj_of_fits (by decide) hsa hsb hsig)
      (ofInt_inj_of_fits (by decide) hea heb hexp)
  · intro h σ hasher state
    rw [feed, feed, h]

/-! ### Texts -/

theorem canonical_congr (hformat : a.format = b.format) (h : a.normal = b.normal) :
    a.canonical = b.canonical := by
  rw [canonical, canonical, h, hformat]

/-! ### Constructed amounts -/

theorem exists_ofParts? {s e : Int} (format : Format) (hs : Fits 128 s) (he : Fits 32 e) :
    ∃ q, ofParts? s e format = some q := by
  rw [ofParts?, dif_pos hs, dif_pos he]
  exact ⟨_, rfl⟩

/-- Amounts are equal if and only if significand times power of ten is the same number, so equality
is an equivalence. Equal amounts, and no others, feed every hasher the same words. Any parts that
the words hold make an amount, and two of these that are equal and of one format have one text. -/
theorem equality_is_exact :
    (∀ a b : Quantity, (a == b) = true ↔
      (a.significand : ℚ) * 10 ^ a.exponent = b.significand * 10 ^ b.exponent) ∧
    (Equivalence fun a b : Quantity => (a == b) = true) ∧
    (∀ a b : Quantity, (a == b) = true ↔
      ∀ (σ : Type) (h : Hasher σ) (state : σ), a.feed h state = b.feed h state) ∧
    (∀ (s e t f : Int) (format : Format),
      Fits 128 s → Fits 32 e → Fits 128 t → Fits 32 f →
        ∃ a b, ofParts? s e format = some a ∧ ofParts? t f format = some b ∧
          ((a == b) = true ↔ (s : ℚ) * 10 ^ e = t * 10 ^ f) ∧
          ((a == b) = true → a.text = b.text)) := by
  refine ⟨fun a b => beq_iff_value_eq, equivalence_beq,
    fun a b => beq_iff_normal_eq.trans feed_eq_iff.symm, ?_⟩
  intro s e t f format hs he ht hf
  obtain ⟨a, ha⟩ := exists_ofParts? format hs he
  obtain ⟨b, hb⟩ := exists_ofParts? format ht hf
  obtain ⟨-, htext⟩ := text_eq_canonical ha
  obtain ⟨-, htext'⟩ := text_eq_canonical hb
  obtain ⟨rfl, rfl, hformat⟩ := parts_of_ofParts? ha
  obtain ⟨rfl, rfl, hformat'⟩ := parts_of_ofParts? hb
  refine ⟨a, b, ha, hb, beq_iff_value_eq, fun h => ?_⟩
  have hcanonical := canonical_congr (hformat.trans hformat'.symm) (beq_iff_normal_eq.mp h)
  rw [htext, htext', hcanonical]

/-- At the largest exponent a trailing zero stays, and the same amount is found there from below. -/
theorem equality_is_exact_largest :
    ∃ a b, ofParts? (-10) (2 ^ 31 - 1) .decimalExponent = some a ∧
      ofParts? (-100) (2 ^ 31 - 2) .decimalExponent = some b ∧ (a == b) = true ∧
      a.text = b.text ∧ a.text = "-100e2147483646" := by
  obtain ⟨a, b, ha, hb, -, htext⟩ := equality_is_exact.2.2.2 (-10) (2 ^ 31 - 1) (-100) (2 ^ 31 - 2)
    .decimalExponent (by decide) (by decide) (by decide) (by decide)
  have hequal : (a == b) = true := by
    obtain rfl := Option.some.inj ha
    obtain rfl := Option.some.inj hb
    decide +kernel
  have hshown : a.text = "-100e2147483646" := by
    obtain rfl := Option.some.inj ha
    decide +kernel
  exact ⟨a, b, ha, hb, hequal, htext hequal, hshown⟩

end KubeClient.Quantity
