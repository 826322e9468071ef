import QdrantRag.Verify.Truncation

/-! # What chunking keeps

The loop over the splitter's pieces never drops text it has taken: a piece becomes a chunk of its
own or is merged into the one before (`Kept.step`). What a piece loses it loses to the cap on its
tokens. -/

namespace QdrantRag
open Text

variable {env : Env} {chunks : List Chunk} {text : String}

/-! ## The loop over the pieces -/

/-- Some chunk holds the text. -/
def Kept (chunks : List Chunk) (text : String) : Prop := ∃ chunk ∈ chunks, Within text chunk.text

instance : Decidable (Kept chunks text) := inferInstanceAs (Decidable (∃ chunk ∈ chunks, _))

/-- A round keeps the text of every chunk: only the last is rewritten, to a longer one. -/
theorem Kept.step (h : Kept chunks text) (raw_text : String) :
    Kept (chunkStep env chunks raw_text) text := by
  obtain ⟨chunk, hchunk, hwithin⟩ := h
  have happend (new : Chunk) : Kept (chunks ++ [new]) text :=
    ⟨chunk, List.mem_append_left _ hchunk, hwithin⟩
  unfold chunkStep
  simp only
  split
  · exact ⟨chunk, hchunk, hwithin⟩
  · split
    · next prev hlast =>
      split
      · -- the chunk is one of those before the last, or the last
        rw [← List.dropLast_append_getLast? prev hlast] at hchunk
        rcases List.mem_append.mp hchunk with hinit | heq
        · exact ⟨chunk, List.mem_append_left _ hinit, hwithin⟩
        · obtain rfl := List.mem_singleton.mp heq
          refine ⟨_, List.mem_append_right _ (List.mem_singleton_self _), ?_⟩
          exact (hwithin.append_right " ").append_right _
      · exact happend _
    · exact happend _

/-- A round takes in what is left of its piece. -/
theorem kept_step (env : Env) (chunks : List Chunk) {raw_text : String}
    (hne : truncateToMaxTokens env raw_text ≠ "") :
    Kept (chunkStep env chunks raw_text) (truncateToMaxTokens env raw_text) := by
  have happend (chunks : List Chunk) (new : Chunk)
      (hnew : Within (truncateToMaxTokens env raw_text) new.text) :
      Kept (chunks ++ [new]) (truncateToMaxTokens env raw_text) :=
    ⟨new, List.mem_append_right _ (List.mem_singleton_self _), hnew⟩
  unfold chunkStep
  simp only [if_neg hne]
  split
  · split
    · apply happend
      exact within_append _ _
    · exact happend _ _ (.refl _)
  · exact happend _ _ (.refl _)

/-- The loop keeps what it has, and what is left of every piece. -/
theorem kept_foldl (raw_chunks : List String) (chunks : List Chunk)
    (h : Kept chunks text ∨ ∃ raw_text ∈ raw_chunks, truncateToMaxTokens env raw_text = text ∧
      text ≠ "") : Kept (raw_chunks.foldl (chunkStep env) chunks) text := by
  induction raw_chunks generalizing chunks with
  | nil =>
    rcases h with h | ⟨_, h, -⟩
    · exact h
    · cases h
  | cons raw_text raw_chunks ih =>
    rw [List.foldl_cons]
    apply ih
    rcases h with h | ⟨raw, hraw, rfl, hne⟩
    · exact .inl (h.step raw_text)
    · rcases List.mem_cons.mp hraw with rfl | hraw
      · exact .inl (kept_step env chunks hne)
      · exact .inr ⟨raw, hraw, rfl, hne⟩

/-- All chunks are within the cap. -/
def Fits (env : Env) (chunks : List Chunk) : Prop :=
  ∀ chunk ∈ chunks, countTokens env chunk.text ≤ maxChunkTokens

/-- A round adds a text that was cut to fit, or one that was merged because it does. -/
theorem Fits.step (h : Fits env chunks) (raw_text : String) :
    Fits env (chunkStep env chunks raw_text) := by
  have happend {chunks : List Chunk} (h : Fits env chunks) {new : Chunk}
      (hnew : countTokens env new.text ≤ maxChunkTokens) : Fits env (chunks ++ [new]) := by
    intro chunk hchunk
    rcases List.mem_append.mp hchunk with hchunk | hchunk
    · exact h chunk hchunk
    · rw [List.mem_singleton.mp hchunk]
      exact hnew
  have hcut := truncateToMaxTokens_fits env raw_text
  unfold chunkStep
  simp only
  split
  · exact h
  · split
    · split
      · next hmerged =>
        exact happend (fun chunk hchunk => h chunk (List.dropLast_subset _ hchunk)) hmerged.2
      · exact happend h hcut
    · exact happend h hcut

/-! ## The chunks of an item -/

/-- No chunk exceeds the cap. -/
theorem chunkItem_fits (env : Env) (content source_type : String) :
    Fits env (chunkItem env content source_type) := by
  have hfold (raw_chunks : List String) {chunks : List Chunk} (h : Fits env chunks) :
      Fits env (raw_chunks.foldl (chunkStep env) chunks) := by
    induction raw_chunks generalizing chunks with
    | nil => exact h
    | cons raw_text raw_chunks ih =>
      apply ih
      exact h.step raw_text
  have hnil : Fits env [] := fun _ h => nomatch h
  unfold chunkItem
  simp only
  split
  · exact hnil
  · split
    · intro chunk hchunk
      rw [List.mem_singleton.mp hchunk]
      exact truncateToMaxTokens_fits env _
    · exact hfold _ hnil

/-- The splitter returns parts of the text. -/
def Env.SplitsParts (env : Env) (content : String) : Prop :=
  ∀ size overlap, ∀ piece ∈ env.split_text size overlap content, Within piece content

theorem within_of_mem_rawChunks {content source_type piece : String}
    (hsplit : env.SplitsParts content) (h : piece ∈ rawChunks env content source_type) :
    Within piece content ∧ piece ≠ "" ∧ strip piece = piece := by
  obtain ⟨hmem, hne⟩ := List.mem_filter.mp h
  obtain ⟨raw, hraw, rfl⟩ := List.mem_map.mp hmem
  refine ⟨(strip_within raw).trans (hsplit _ _ raw hraw), ?_, strip_strip raw⟩
  simpa using hne

/-- **Chunking cuts only what exceeds the cap.** Of every piece of the splitter a part is kept, by
the cap on tokens: all of it where it fits, else a prefix that does. Where anything is left, it
stands in one of the chunks; and something is left where no text has more tokens than the cap for
each of its characters. -/
theorem chunkItem_keeps (env : Env) (content source_type : String)
    (hsplit : env.SplitsParts content) :
    ∀ piece ∈ rawChunks env content source_type,
      (countTokens env piece ≤ maxChunkTokens →
        Kept (chunkItem env content source_type) piece) ∧
      (truncateToMaxTokens env piece).toList <+: piece.toList ∧
      countTokens env (truncateToMaxTokens env piece) ≤ maxChunkTokens ∧
      (truncateToMaxTokens env piece ≠ "" →
        Kept (chunkItem env content source_type) (truncateToMaxTokens env piece)) ∧
      ((∀ t, countTokens env t ≤ 600 * t.length) → truncateToMaxTokens env piece ≠ "") := by
  intro piece hpiece
  obtain ⟨hwithin, hne, hstrip⟩ := within_of_mem_rawChunks hsplit hpiece
  have hkept (hleft : truncateToMaxTokens env piece ≠ "") :
      Kept (chunkItem env content source_type) (truncateToMaxTokens env piece) := by
    have hcontent : strip content ≠ "" := by
      intro hblank
      apply hne
      rw [← hstrip]
      exact hwithin.strip_eq_empty hblank
    have hfold : Kept ((rawChunks env content source_type).foldl (chunkStep env) [])
        (truncateToMaxTokens env piece) := kept_foldl _ _ (.inr ⟨piece, hpiece, rfl, hleft⟩)
    unfold chunkItem
    simp only [if_neg hcontent]
    split
    · next hnil =>
      obtain ⟨chunk, hchunk, -⟩ := hfold
      rw [hnil] at hchunk
      cases hchunk
    · exact hfold
  refine ⟨fun hfits => ?_, truncateToMaxTokens_prefixOf env piece,
    truncateToMaxTokens_fits env piece, hkept, fun hc => ?_⟩
  · have hall := truncateToMaxTokens_of_le hfits
    rw [← hall]
    apply hkept
    rw [hall]
    exact hne
  · have hstarts : Starts piece := hstrip ▸ starts_strip (hstrip.symm ▸ hne)
    exact (starts_truncate hc hstarts).ne_empty

/-- Every character is a token. -/
def Sample.dense : Env := { Sample.env with tokenizer_len := String.length }

/-- The splitter of the sample returns the text whole. -/
theorem Sample.splitsParts (content : String) : dense.SplitsParts content := by
  intro size overlap piece hpiece
  rw [List.mem_singleton.mp hpiece]
  exact .refl content

theorem chunkItem_keeps_hello : Kept (chunkItem Sample.dense "Hello" "text") "Hello" := by
  have hpiece : "Hello" ∈ rawChunks Sample.dense "Hello" "text" := by decide +kernel
  exact (chunkItem_keeps _ _ _ (Sample.splitsParts _) "Hello" hpiece).1 (by decide)

/-- A text of `n` characters. -/
def Sample.xs (n : Nat) : String := String.ofList (List.replicate n 'x')

theorem Sample.toList_xs (n : Nat) : (xs n).toList = List.replicate n 'x' := String.toList_ofList

theorem Sample.strip_xs (n : Nat) : strip (xs n) = xs n := by
  apply strip_eq_self
  intro c hc
  rw [toList_xs] at hc
  rw [List.eq_of_mem_replicate hc]
  decide

theorem Sample.xs_ne_empty (n : Nat) : xs (n + 1) ≠ "" := by
  intro hempty
  have hlist := congrArg String.toList hempty
  rw [toList_xs] at hlist
  cases hlist

/-- Of a piece of 601 tokens not all is kept. -/
theorem chunkItem_cuts : Sample.dense.SplitsParts (Sample.xs 601) ∧
    rawChunks Sample.dense (Sample.xs 601) "text" = [Sample.xs 601] ∧
    ¬ Kept (chunkItem Sample.dense (Sample.xs 601) "text") (Sample.xs 601) := by
  refine ⟨Sample.splitsParts _, ?_, ?_⟩
  · change ([Sample.xs 601].map strip).filter (· ≠ "") = [Sample.xs 601]
    rw [List.map_singleton, Sample.strip_xs]
    exact List.filter_cons_of_pos (decide_eq_true (Sample.xs_ne_empty 600))
  · rintro ⟨chunk, hchunk, hwithin⟩
    have hlength := hwithin.length_le
    rw [Sample.toList_xs, List.length_replicate] at hlength
    have hfits := chunkItem_fits _ _ _ chunk hchunk
    have htext : chunk.text ≠ "" := by
      intro hempty
      rw [hempty] at hlength
      cases hlength
    rw [countTokens, if_neg htext] at hfits
    have hcap : chunk.text.length ≤ 600 := hfits
    rw [← String.length_toList] at hcap
    omega

end QdrantRag
