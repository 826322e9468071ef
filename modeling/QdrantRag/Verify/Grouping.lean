import QdrantRag.Data.Groups
import QdrantRag.Verify.Chunking

/-! # The chunks as groups of pieces

The chunks of an item are the pieces of the splitter, stripped and cut to the cap, grouped from the
left: a chunk is a group joined with spaces (`Grouped.step`). What holds of the chunks is read off
the groups. -/

namespace QdrantRag
open Text

variable {env : Env} {content source_type text : String} {chunks : List Chunk}
  {texts g pieces : List String} {groups : List (List String)}

/-! ## Pieces and groups -/

/-- The pieces that are left when they are cut to the cap. -/
def leftPieces (env : Env) (raw_chunks : List String) : List String :=
  (raw_chunks.map (truncateToMaxTokens env)).filter (· ≠ "")

/-- A piece is short, and fits in with the chunk of the group. -/
def Merges (env : Env) (g : List String) (text : String) : Prop :=
  text.length < minChunkChars ∧ countTokens env (" ".intercalate g ++ " " ++ text) ≤ maxChunkTokens

/-- The chunks that groups make. -/
def chunksOf (env : Env) (groups : List (List String)) : List Chunk :=
  groups.mapIdx fun i g => mkChunk env (" ".intercalate g) i

theorem chunksOf_concat : chunksOf env (groups ++ [g]) =
    chunksOf env groups ++ [mkChunk env (" ".intercalate g) groups.length] := List.mapIdx_concat

theorem length_chunksOf : (chunksOf env groups).length = groups.length := List.length_mapIdx

theorem intercalate_concat (hg : g ≠ []) :
    " ".intercalate (g ++ [text]) = " ".intercalate g ++ " " ++ text := by
  rw [String.intercalate_append_of_ne_nil hg (List.cons_ne_nil _ _), String.intercalate_singleton]

/-- The chunks are those of groups of the texts. -/
def Grouped (env : Env) (texts : List String) (chunks : List Chunk) : Prop :=
  ∃ groups, List.Grouping (Merges env) texts groups ∧ chunks = chunksOf env groups

/-- A round puts what is left of its piece into a group. -/
theorem Grouped.step (h : Grouped env texts chunks) (raw_text : String) :
    Grouped env (texts ++ leftPieces env [raw_text]) (chunkStep env chunks raw_text) := by
  obtain ⟨groups, hgroups, rfl⟩ := h
  unfold chunkStep leftPieces
  simp only [List.map_singleton]
  generalize truncateToMaxTokens env raw_text = text
  split
  · next hempty =>
    rw [List.filter_cons_of_neg (by simpa using hempty), List.filter_nil, List.append_nil]
    exact ⟨groups, hgroups, rfl⟩
  · next hne =>
    rw [List.filter_cons_of_pos (by simpa using hne), List.filter_nil]
    have hsnoc (hlast : ∀ g ∈ groups.getLast?, ¬ Merges env g text) :
        Grouped env (texts ++ [text])
          (chunksOf env groups ++ [mkChunk env text (chunksOf env groups).length]) := by
      refine ⟨groups ++ [[text]], hgroups.snoc hlast, ?_⟩
      rw [chunksOf_concat, String.intercalate_singleton, length_chunksOf]
    rcases List.eq_nil_or_concat groups with rfl | ⟨init, g, rfl⟩
    · exact hsnoc nofun
    · rw [List.concat_eq_append] at hgroups hsnoc ⊢
      have hg : g ≠ [] := hgroups.ne_nil g (List.mem_append_right _ (List.mem_singleton_self g))
      rw [chunksOf_concat, List.getLast?_concat, List.dropLast_concat]
      rw [chunksOf_concat] at hsnoc
      simp only
      split
      · next hmerges =>
        refine ⟨init ++ [g ++ [text]], hgroups.join hmerges, ?_⟩
        rw [chunksOf_concat, intercalate_concat hg]
        rfl
      · next hmerges =>
        apply hsnoc
        intro g' hg'
        rw [List.getLast?_concat] at hg'
        obtain rfl := Option.some.inj hg'
        exact hmerges

theorem leftPieces_append (pieces pieces' : List String) :
    leftPieces env (pieces ++ pieces') = leftPieces env pieces ++ leftPieces env pieces' := by
  unfold leftPieces
  rw [List.map_append, List.filter_append]

/-- The loop groups what is left of the pieces. -/
theorem grouped_foldl (env : Env) (raw_chunks : List String) :
    Grouped env (leftPieces env raw_chunks) (raw_chunks.foldl (chunkStep env) []) := by
  induction raw_chunks using List.reverseRecOn with
  | nil => exact ⟨[], .nil, rfl⟩
  | append_singleton raw_chunks raw_text ih =>
    rw [leftPieces_append, List.foldl_append, List.foldl_cons, List.foldl_nil]
    exact ih.step raw_text

/-- The chunks of an item are the groups of what is left, or, where nothing is, the text itself. -/
theorem chunkItem_cases (env : Env) (source_type : String) (hcontent : strip content ≠ "") :
    (leftPieces env (rawChunks env content source_type) = [] ∧
      chunkItem env content source_type =
        chunksOf env [[truncateToMaxTokens env (strip content)]]) ∨
    (leftPieces env (rawChunks env content source_type) ≠ [] ∧
      Grouped env (leftPieces env (rawChunks env content source_type))
        (chunkItem env content source_type)) := by
  obtain ⟨groups, hgroups, hchunks⟩ := grouped_foldl env (rawChunks env content source_type)
  unfold chunkItem
  rw [if_neg hcontent]
  simp only [hchunks]
  have hflatten := hgroups.flatten
  cases groups with
  | nil =>
    refine .inl ⟨hflatten.symm, if_pos rfl |>.trans ?_⟩
    rw [chunksOf, List.mapIdx_singleton, String.intercalate_singleton]
  | cons g groups =>
    refine .inr ⟨fun hnil => ?_, g :: groups, hgroups, if_neg ?_⟩
    · rw [hnil, List.flatten_cons, List.append_eq_nil_iff] at hflatten
      exact hgroups.ne_nil g List.mem_cons_self hflatten.1
    · exact List.ne_nil_of_length_eq_add_one length_chunksOf

theorem map_text_chunksOf :
    (chunksOf env groups).map Chunk.text = groups.map (" ".intercalate ·) := by
  apply List.ext_getElem?
  intro i
  rw [List.getElem?_map, List.getElem?_map, chunksOf, List.getElem?_mapIdx, Option.map_map]
  rfl

/-- **Chunking groups the pieces.** The pieces that are left of a text's, in their order, fall into
groups, one for each chunk. Only short pieces are merged, and a piece that opens a group is not
short or did not fit in with the chunk before it. -/
theorem chunkItem_groups (env : Env) (content source_type : String) (hcontent : strip content ≠ "")
    (hleft : leftPieces env (rawChunks env content source_type) ≠ []) :
    ∃ groups : List (List String),
      groups.flatten = leftPieces env (rawChunks env content source_type) ∧
      (∀ g ∈ groups, g ≠ []) ∧
      (chunkItem env content source_type).map Chunk.text = groups.map (" ".intercalate ·) ∧
      (∀ g ∈ groups, ∀ piece ∈ g.tail, piece.length < 50) ∧
      groups.IsChain fun g g' => ∀ piece ∈ g'.head?,
        50 ≤ piece.length ∨ 600 < countTokens env (" ".intercalate g ++ " " ++ piece) := by
  obtain ⟨hnil, -⟩ | ⟨-, groups, hgroups, hchunks⟩ := chunkItem_cases env source_type hcontent
  · exact absurd hnil hleft
  refine ⟨groups, hgroups.flatten, hgroups.ne_nil, ?_, fun g hg piece hpiece => ?_, ?_⟩
  · rw [hchunks, map_text_chunksOf]
  · obtain ⟨pre, hshort, -⟩ := hgroups.merged_of_mem_tail hg hpiece
    exact hshort
  · refine hgroups.opened.imp fun g g' hopened piece hpiece => ?_
    by_contra hnot
    rw [not_or, Nat.not_le, Nat.not_lt] at hnot
    exact hopened piece hpiece hnot

/-- A tokenizer of `n` characters a token. -/
def Sample.tokensOf (n : Nat) : Env :=
  { Sample.env with
    split_text := fun _ _ text => [text, "Bye"]
    tokenizer_len := fun text => (text.length + n - 1) / n }

theorem chunkItem_groups_hello : ∃ groups : List (List String),
    groups.flatten = ["Hello", "Bye"] ∧
    (chunkItem (Sample.tokensOf 4) "Hello" "text").map Chunk.text =
      groups.map (" ".intercalate ·) := by
  have hpieces : leftPieces (Sample.tokensOf 4) (rawChunks (Sample.tokensOf 4) "Hello" "text") =
      ["Hello", "Bye"] := by decide +kernel
  obtain ⟨groups, hflatten, -, htexts, -⟩ := chunkItem_groups (Sample.tokensOf 4) "Hello" "text"
    (by decide +kernel) (by rw [hpieces]; exact List.cons_ne_nil _ _)
  exact ⟨groups, hflatten.trans hpieces, htexts⟩

/-! ## What is left of a piece -/

theorem starts_of_mem_leftPieces (hc : ∀ t, countTokens env t ≤ 600 * t.length)
    (h : text ∈ leftPieces env (rawChunks env content source_type)) : Starts text := by
  obtain ⟨piece, hpiece, rfl⟩ := List.mem_map.mp (List.mem_filter.mp h).1
  apply starts_truncate hc
  obtain ⟨hmem, hne⟩ := List.mem_filter.mp hpiece
  obtain ⟨raw, -, rfl⟩ := List.mem_map.mp hmem
  apply starts_strip
  simpa using hne

/-- The chunks of an item are those of groups that start with a character. -/
theorem exists_groups (hc : ∀ t, countTokens env t ≤ 600 * t.length) (source_type : String)
    (hcontent : strip content ≠ "") :
    ∃ groups, chunkItem env content source_type = chunksOf env groups ∧
      groups ≠ [] ∧ ∀ g ∈ groups, Starts (" ".intercalate g) := by
  obtain ⟨-, hchunks⟩ | ⟨hleft, groups, hgroups, hchunks⟩ :=
    chunkItem_cases env source_type hcontent
  · refine ⟨_, hchunks, List.cons_ne_nil _ _, fun g hg => ?_⟩
    rw [List.mem_singleton.mp hg, String.intercalate_singleton]
    exact starts_truncate hc (starts_strip hcontent)
  · refine ⟨groups, hchunks, ?_, fun g hg => ?_⟩
    · rintro rfl
      exact hleft hgroups.flatten.symm
    · cases g with
      | nil => exact absurd rfl (hgroups.ne_nil _ hg)
      | cons text texts =>
        apply Starts.intercalate
        exact starts_of_mem_leftPieces hc (hgroups.subset hg List.mem_cons_self)

/-- **The chunks of an item.** Where no text has more tokens than the cap for each of its
characters, the chunks are numbered in their order, none is blank or exceeds the cap, and a text
that is not blank has some. -/
theorem chunkItem_wellFormed (env : Env) (content source_type : String)
    (hc : ∀ t, countTokens env t ≤ 600 * t.length) :
    (∀ (i : Nat) (chunk : Chunk), (chunkItem env content source_type)[i]? = some chunk →
      chunk.chunk_index = i ∧ strip chunk.text ≠ "" ∧ chunk.char_count = chunk.text.length ∧
      chunk.token_count = countTokens env chunk.text ∧ chunk.token_count ≤ 600) ∧
    (chunkItem env content source_type = [] ↔ strip content = "") := by
  have hfits := chunkItem_fits env content source_type
  by_cases hcontent : strip content = ""
  · have hnil : chunkItem env content source_type = [] := if_pos hcontent
    rw [hnil]
    exact ⟨fun _ _ h => (nomatch h), fun _ => hcontent, fun _ => rfl⟩
  · obtain ⟨groups, hchunks, hne, hstarts⟩ := exists_groups hc source_type hcontent
    rw [hchunks] at hfits ⊢
    constructor
    · intro i chunk hchunk
      have hmem := hfits chunk (List.mem_of_getElem? hchunk)
      rw [chunksOf, List.getElem?_mapIdx, Option.map_eq_some_iff] at hchunk
      obtain ⟨g, hg, rfl⟩ := hchunk
      exact ⟨rfl, (hstarts g (List.mem_of_getElem? hg)).strip_ne_empty, rfl, rfl, hmem⟩
    · refine ⟨fun hnil => ?_, fun h => absurd h hcontent⟩
      have hlength := congrArg List.length hnil
      rw [length_chunksOf] at hlength
      exact absurd (List.length_eq_zero_iff.mp hlength) hne

theorem chunkItem_wellFormed_hello :
    chunkItem Sample.env "Hello" "text" = [] ↔ strip "Hello" = "" := by
  refine (chunkItem_wellFormed Sample.env "Hello" "text" fun t => ?_).2
  by_cases ht : t = ""
  · rw [ht, countTokens_empty]
    exact Nat.zero_le _
  · have hone : countTokens Sample.env t = 1 := if_neg ht
    have hpos : t.length ≠ 0 := fun h => ht (String.length_eq_zero_iff.mp h)
    omega

/-! ## Chunks as parts of the content -/

theorem leftPieces_cons {raw_text : String} : leftPieces env (raw_text :: pieces) =
    if truncateToMaxTokens env raw_text = "" then leftPieces env pieces
    else truncateToMaxTokens env raw_text :: leftPieces env pieces := by
  unfold leftPieces
  rw [List.map_cons, List.filter_cons]
  split <;> split <;> simp_all

/-- Wherever a piece is merged into the chunk before it, the content has it one space behind the
text of that chunk. `last` is the text of the last chunk. -/
def Adjoining (env : Env) (content : String) : (last : Option String) → List String → Prop
  | _, [] => True
  | none, text :: texts => Adjoining env content (some text) texts
  | some last, text :: texts =>
    if text.length < minChunkChars ∧ countTokens env (last ++ " " ++ text) ≤ maxChunkTokens then
      Within (last ++ " " ++ text) content ∧
        Adjoining env content (some (last ++ " " ++ text)) texts
    else Adjoining env content (some text) texts

/-- All chunks are parts of the content. -/
def PartsOf (content : String) (chunks : List Chunk) : Prop :=
  ∀ chunk ∈ chunks, Within chunk.text content

theorem partsOf_concat {chunk : Chunk} : PartsOf content (chunks ++ [chunk]) ↔
    PartsOf content chunks ∧ Within chunk.text content := by
  unfold PartsOf
  rw [List.forall_mem_append, List.forall_mem_singleton]

variable (env) in
/-- The loop over pieces that are parts of the content. -/
theorem partsOf_foldl (raw_chunks : List String) (chunks : List Chunk)
    (hraw : ∀ raw_text ∈ raw_chunks, Within raw_text content) :
    PartsOf content (raw_chunks.foldl (chunkStep env) chunks) ↔
      PartsOf content chunks ∧
        Adjoining env content (chunks.getLast?.map Chunk.text) (leftPieces env raw_chunks) := by
  induction raw_chunks generalizing chunks with
  | nil => exact ⟨fun h => ⟨h, trivial⟩, And.left⟩
  | cons raw_text raw_chunks ih =>
    have hrest := ih (chunkStep env chunks raw_text) fun raw hraw' =>
      hraw raw (List.mem_cons_of_mem _ hraw')
    have hcut : Within (truncateToMaxTokens env raw_text) content :=
      Within.trans (truncateToMaxTokens_prefixOf env raw_text).isInfix (hraw _ List.mem_cons_self)
    rw [List.foldl_cons, hrest, leftPieces_cons]
    unfold chunkStep
    simp only
    generalize truncateToMaxTokens env raw_text = text at hcut ⊢
    split
    · rfl
    · rcases List.eq_nil_or_concat chunks with rfl | ⟨init, prev, rfl⟩
      · simp only [List.getLast?_nil, partsOf_concat, List.getLast?_concat, Option.map_none,
          Option.map_some, Adjoining]
        exact ⟨fun h => ⟨h.1.1, h.2⟩, fun h => ⟨⟨h.1, hcut⟩, h.2⟩⟩
      · simp only [List.concat_eq_append, List.getLast?_concat, List.dropLast_concat,
          Option.map_some, Adjoining]
        split
        · -- the chunk that is merged into is a part of the merged one
          have hprev : Within prev.text (prev.text ++ " " ++ text) :=
            ((Within.refl _).append_right _).append_right _
          simp only [partsOf_concat, List.getLast?_concat, Option.map_some]
          exact ⟨fun h => ⟨⟨h.1.1, hprev.trans h.1.2⟩, h.1.2, h.2⟩,
            fun h => ⟨⟨h.1.1, h.2.1⟩, h.2.2⟩⟩
        · simp only [partsOf_concat, List.getLast?_concat, Option.map_some]
          exact ⟨fun h => ⟨h.1.1, h.2⟩, fun h => ⟨⟨h.1, hcut⟩, h.2⟩⟩

/-- **When chunks are parts of the content.** They are if and only if every short piece that is
merged stands in the content one space behind the chunk it is merged into. -/
theorem chunkItem_parts_iff (env : Env) (content source_type : String)
    (hsplit : env.SplitsParts content) :
    (∀ chunk ∈ chunkItem env content source_type, Within chunk.text content) ↔
      Adjoining env content none (leftPieces env (rawChunks env content source_type)) := by
  have hraw : ∀ piece ∈ rawChunks env content source_type, Within piece content :=
    fun _ h => (within_of_mem_rawChunks hsplit h).1
  by_cases hcontent : strip content = ""
  · -- the pieces are blank, and no chunks are made
    have hnone : rawChunks env content source_type = [] := by
      apply List.eq_nil_iff_forall_not_mem.mpr
      intro piece hpiece
      obtain ⟨hwithin, hne, hstrip⟩ := within_of_mem_rawChunks hsplit hpiece
      exact hne (hstrip ▸ hwithin.strip_eq_empty hcontent)
    have hnil : chunkItem env content source_type = [] := if_pos hcontent
    rw [hnone, hnil]
    exact ⟨fun _ => trivial, fun _ _ h => (nomatch h)⟩
  · have hfold := partsOf_foldl env (rawChunks env content source_type) [] hraw
    unfold chunkItem
    rw [if_neg hcontent]
    simp only
    split
    · next hnil =>
      rw [hnil] at hfold
      have hadjoining := (hfold.mp fun _ h => (nomatch h)).2
      refine ⟨fun _ => hadjoining, fun _ chunk hchunk => ?_⟩
      rw [List.mem_singleton.mp hchunk]
      exact Within.trans (truncateToMaxTokens_prefixOf env _).isInfix (strip_within content)
    · exact hfold.trans (and_iff_right fun _ h => (nomatch h))

theorem chunkItem_parts_iff_hello :
    (chunkItem Sample.dense "Hello" "text").length = 1 ∧
      ∀ chunk ∈ chunkItem Sample.dense "Hello" "text", Within chunk.text "Hello" := by
  refine ⟨by decide +kernel, ?_⟩
  apply (chunkItem_parts_iff Sample.dense "Hello" "text" (Sample.splitsParts _)).mpr
  have hpieces : leftPieces Sample.dense (rawChunks Sample.dense "Hello" "text") = ["Hello"] := by
    decide +kernel
  rw [hpieces]
  trivial

/-- A long paragraph and a short one. -/
def Sample.farewell : String := "Thank you and goodbye."
def Sample.letter : String := xs 790 ++ "\n\n" ++ farewell

/-- The splitter puts the paragraphs of the letter apart; four characters make a token. -/
def Sample.apart : Env :=
  { Sample.env with
    split_text := fun _ _ text => if text = letter then [xs 790, farewell] else [text]
    tokenizer_len := fun text => (text.length + 3) / 4 }

theorem Sample.split_letter (size overlap : Nat) :
    apart.split_text size overlap letter = [xs 790, farewell] := by
  simp only [apart, if_true]

theorem Sample.fits_apart (h : text.length ≤ 2400) :
    countTokens Sample.apart text ≤ maxChunkTokens := by
  unfold countTokens
  split
  · exact Nat.zero_le _
  · change (text.length + 3) / 4 ≤ 600
    omega

theorem Sample.length_xs (n : Nat) : (xs n).length = n := by
  rw [← String.length_toList, toList_xs, List.length_replicate]

/-- The short paragraph is merged, and the content has no space before it. -/
theorem chunkItem_joins : Sample.apart.SplitsParts Sample.letter ∧
    ∃ chunk ∈ chunkItem Sample.apart Sample.letter "text", ¬ Within chunk.text Sample.letter := by
  have hfarewell : Sample.farewell.length = 22 := by decide
  have hlong : (Sample.xs 790).length = 790 := Sample.length_xs 790
  constructor
  · intro size overlap piece hpiece
    rw [Sample.split_letter] at hpiece
    rcases List.mem_cons.mp hpiece with rfl | hpiece
    · exact ((Within.refl _).append_right _).append_right _
    · rw [List.mem_singleton.mp hpiece]
      exact within_append _ _
  · have hraw : rawChunks Sample.apart Sample.letter "text" = [Sample.xs 790, Sample.farewell] := by
      have hstrip : strip Sample.farewell = Sample.farewell := by decide +kernel
      have hne : Sample.farewell ≠ "" := by decide
      unfold rawChunks
      simp only [Sample.split_letter, List.map_cons, List.map_nil, Sample.strip_xs, hstrip]
      rw [List.filter_cons_of_pos (by simpa using Sample.xs_ne_empty 789),
        List.filter_cons_of_pos (by simpa using hne), List.filter_nil]
    have hfirst : chunkStep Sample.apart [] (Sample.xs 790) =
        [mkChunk Sample.apart (Sample.xs 790) 0] := by
      unfold chunkStep
      rw [truncateToMaxTokens_of_le (Sample.fits_apart (by omega))]
      exact if_neg (Sample.xs_ne_empty 789)
    have hmerged : countTokens Sample.apart (Sample.xs 790 ++ " " ++ Sample.farewell) ≤
        maxChunkTokens := by
      apply Sample.fits_apart
      rw [String.length_append, String.length_append, hlong, hfarewell]
      decide
    have hsecond : chunkStep Sample.apart [mkChunk Sample.apart (Sample.xs 790) 0]
        Sample.farewell = [mkChunk Sample.apart (Sample.xs 790 ++ " " ++ Sample.farewell) 0] := by
      unfold chunkStep
      rw [truncateToMaxTokens_of_le (Sample.fits_apart (by omega))]
      exact (if_neg (by decide)).trans (if_pos ⟨by decide, hmerged⟩)
    have hchunks : chunkItem Sample.apart Sample.letter "text" =
        [mkChunk Sample.apart (Sample.xs 790 ++ " " ++ Sample.farewell) 0] := by
      have hstarts : Starts Sample.letter := by
        refine ⟨'x', List.replicate 789 'x' ++ "\n\n".toList ++ Sample.farewell.toList, ?_,
          by decide⟩
        rw [Sample.letter, String.toList_append, String.toList_append, Sample.toList_xs]
        rfl
      unfold chunkItem
      rw [if_neg hstarts.strip_ne_empty, hraw]
      simp only [List.foldl_cons, List.foldl_nil, hfirst, hsecond]
      exact if_neg (List.cons_ne_nil _ _)
    rw [hchunks]
    refine ⟨_, List.mem_singleton_self _, fun hwithin => ?_⟩
    -- the chunk has one space more than the content
    have hcount : (Sample.xs 790 ++ " " ++ Sample.farewell).toList.count ' ' ≤
        Sample.letter.toList.count ' ' := hwithin.sublist.count_le _
    have hxs : (Sample.xs 790).toList.count ' ' = 0 := by
      rw [Sample.toList_xs, List.count_replicate]
      rfl
    simp only [Sample.letter, String.toList_append, List.count_append, hxs] at hcount
    exact absurd hcount (by decide)

end QdrantRag
