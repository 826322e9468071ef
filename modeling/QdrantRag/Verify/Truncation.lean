import QdrantRag.Data.While
import QdrantRag.Verify.Sample

/-! # Cutting a text to the cap

A text of too many tokens is cut, and cut again until it fits. Nothing is known of how the tokens of
a text and of its beginnings relate, so what the cut leaves is described by the loop itself
(`while_truncateToMaxTokens`). -/

namespace QdrantRag
open Text

variable {env : Env} {text : String}

theorem countTokens_empty (env : Env) : countTokens env "" = 0 := if_pos rfl

/-! ## The loop -/

/-- The condition of the loop. -/
def TooLong (env : Env) (truncated : String) : Prop :=
  maxChunkTokens < countTokens env truncated ∧ truncated ≠ ""

instance : DecidablePred (TooLong env) := fun _ => inferInstanceAs (Decidable (_ ∧ _))

/-- A round of the loop. -/
def shorten (truncated : String) : String :=
  rstrip (takeChars truncated (truncated.length * 95 / 100))

/-- The text the loop starts from. -/
def firstCut (env : Env) (text : String) : String :=
  rstrip (takeChars text (text.length * maxChunkTokens / countTokens env text))

theorem rstrip_takeChars_prefixOf (text : String) (n : Nat) :
    (rstrip (takeChars text n)).toList <+: text.toList :=
  (rstrip_prefixOf _).trans (takeChars_prefixOf _ _)

theorem length_rstrip_takeChars_le (text : String) (n : Nat) :
    (rstrip (takeChars text n)).length ≤ n := by
  have hcut := (rstrip_prefixOf (takeChars text n)).length_le
  have htake : (takeChars text n).toList.length ≤ n := by
    rw [takeChars, String.toList_ofList]
    exact List.length_take_le _ _
  rw [← String.length_toList]
  omega

/-- A round shortens the text, be it by one character only. -/
theorem length_shorten_lt (h : TooLong env text) : (shorten text).length < text.length := by
  have hle := length_rstrip_takeChars_le text (text.length * 95 / 100)
  have hpos : text.length ≠ 0 := fun h0 => h.2 (String.length_eq_zero_iff.mp h0)
  rw [shorten]
  omega

theorem truncateToMaxTokens_of_le (h : countTokens env text ≤ maxChunkTokens) :
    truncateToMaxTokens env text = text := by
  unfold truncateToMaxTokens
  simp only [if_pos h]
  split <;> rfl

/-- The loop comes to its end, and what is left of a text that is too long is what it ends with. -/
theorem while_truncateToMaxTokens (h : maxChunkTokens < countTokens env text) :
    While (TooLong env) shorten (firstCut env text) (truncateToMaxTokens env text) := by
  have hne : text ≠ "" := by
    rintro rfl
    rw [countTokens_empty] at h
    omega
  have hloop (fuel : Nat) (truncated : String) : truncateLoop env (fuel + 1) truncated =
      if TooLong env truncated then truncateLoop env fuel (shorten truncated) else truncated := rfl
  have hend := While.of_fuel (a := firstCut env text) (fun _ => rfl) hloop String.length
    (fun _ => length_shorten_lt) le_rfl
  unfold truncateToMaxTokens
  simp only [if_neg hne, if_neg (Nat.not_le.mpr h)]
  exact hend

/-! ## What is left -/

/-- What a text keeps when it is cut at a number of characters, it keeps when it is cut to the
cap. -/
theorem truncateToMaxTokens_rule (I : String → Prop)
    (hfirst : maxChunkTokens < countTokens env text → I (firstCut env text))
    (hround : ∀ truncated, TooLong env truncated → I truncated → I (shorten truncated))
    (h0 : I text) : I (truncateToMaxTokens env text) := by
  by_cases hfits : countTokens env text ≤ maxChunkTokens
  · rw [truncateToMaxTokens_of_le hfits]
    exact h0
  · have hlong := Nat.lt_of_not_le hfits
    exact (while_truncateToMaxTokens hlong).rule I hround (hfirst hlong)

/-- A text is cut at its end only. -/
theorem truncateToMaxTokens_prefixOf (env : Env) (text : String) :
    (truncateToMaxTokens env text).toList <+: text.toList := by
  apply truncateToMaxTokens_rule (fun truncated => truncated.toList <+: text.toList)
  · intro _
    exact rstrip_takeChars_prefixOf text _
  · intro truncated _ hprefix
    exact (rstrip_takeChars_prefixOf truncated _).trans hprefix
  · exact List.prefix_rfl

/-- What is left of a text fits. -/
theorem truncateToMaxTokens_fits (env : Env) (text : String) :
    countTokens env (truncateToMaxTokens env text) ≤ maxChunkTokens := by
  by_cases hfits : countTokens env text ≤ maxChunkTokens
  · rw [truncateToMaxTokens_of_le hfits]
    exact hfits
  · have hexit := (while_truncateToMaxTokens (Nat.lt_of_not_le hfits)).exit
    -- the loop may end with nothing, which has no tokens
    by_cases hempty : truncateToMaxTokens env text = ""
    · rw [hempty, countTokens_empty]
      exact Nat.zero_le _
    · exact Nat.le_of_not_lt fun hlong => hexit ⟨hlong, hempty⟩

/-- Where no text has more tokens than the cap for each of its characters, cutting it leaves its
first character. -/
theorem starts_truncate (hc : ∀ t, countTokens env t ≤ 600 * t.length) (h : Starts text) :
    Starts (truncateToMaxTokens env text) := by
  have hcap : maxChunkTokens = 600 := rfl
  have hcut {truncated : String} (h : Starts truncated) {n : Nat} (hn : n ≠ 0) :
      Starts (rstrip (takeChars truncated n)) := (h.takeChars hn).rstrip
  apply truncateToMaxTokens_rule Starts
  · intro hlong
    apply hcut h
    have htokens := hc text
    have hpos : 0 < countTokens env text := by omega
    rw [hcap]
    exact (Nat.div_pos (by omega) hpos).ne'
  · intro truncated hlong hstarts
    apply hcut hstarts
    -- a text of one character is not too long
    have htokens := hc truncated
    have htoo := hlong.1
    omega
  · exact h

/-- **Truncation ends, and is exact.** Whatever the tokenizer counts, the loop comes to one end, the
result is a beginning of the text within the cap, and only a text within the cap is left as it is.
Where no text has more tokens than the cap for each of its characters, something is left of a text
that does not start with a space. -/
theorem truncateToMaxTokens_exact (env : Env) (text : String) :
    (600 < countTokens env text → ∀ result,
      While (TooLong env) shorten (firstCut env text) result ↔
        result = truncateToMaxTokens env text) ∧
    (truncateToMaxTokens env text).toList <+: text.toList ∧
    countTokens env (truncateToMaxTokens env text) ≤ 600 ∧
    (truncateToMaxTokens env text = text ↔ countTokens env text ≤ 600) ∧
    ((∀ t, countTokens env t ≤ 600 * t.length) → Starts text →
      truncateToMaxTokens env text ≠ "") := by
  refine ⟨fun hlong result => ⟨fun hend => ?_, ?_⟩, ?_, ?_, ⟨fun hall => ?_, ?_⟩, ?_⟩
  · exact hend.unique (while_truncateToMaxTokens hlong)
  · rintro rfl
    exact while_truncateToMaxTokens hlong
  · exact truncateToMaxTokens_prefixOf env text
  · exact truncateToMaxTokens_fits env text
  · rw [← hall]
    exact truncateToMaxTokens_fits env text
  · exact truncateToMaxTokens_of_le
  · intro hc hstarts
    exact (starts_truncate hc hstarts).ne_empty

/-- A tokenizer of as many tokens as the cap allows for each character. -/
def Sample.crowded : Env := { Sample.env with tokenizer_len := fun text => 600 * text.length }

theorem truncateToMaxTokens_exact_crowded :
    truncateToMaxTokens Sample.crowded "Hello" ≠ "Hello" ∧
      truncateToMaxTokens Sample.crowded "Hello" ≠ "" := by
  have hc (t : String) : countTokens Sample.crowded t ≤ 600 * t.length := by
    rw [countTokens]
    split
    · exact Nat.zero_le _
    · exact le_rfl
  obtain ⟨-, -, -, hiff, hleft⟩ := truncateToMaxTokens_exact Sample.crowded "Hello"
  refine ⟨fun h => ?_, hleft hc ⟨'H', "ello".toList, rfl, rfl⟩⟩
  have hfew := hiff.mp h
  have hmany : countTokens Sample.crowded "Hello" = 3000 := rfl
  omega

end QdrantRag
