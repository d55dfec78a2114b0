import PromptForge.UnifiedPatches

namespace PromptForge.UnifiedPatches
open Runs LineDiffs
open TaskContracts (Line breakLines splitLines isBreak joinLines)

def Unbroken (line : Line) : Prop := ∀ c ∈ line, isBreak c = false

lemma breakLines_append {line : Line} (h : Unbroken line) (current rest : Text) :
    breakLines current (line ++ rest) = breakLines (line.reverse ++ current) rest := by
  induction line generalizing current with
  | nil => rfl
  | cons c line ih =>
    have hc : isBreak c = false := h c (List.mem_cons_self ..)
    have hreturn : c ≠ '\r' := by
      rintro rfl
      cases hc
    have hrest := ih (fun d hd => h d (List.mem_cons_of_mem _ hd)) (c :: current)
    rw [List.cons_append, breakLines, hc]
    · simpa using hrest
    · intro rest' hsame
      exact absurd hsame hreturn

def IsEnd (ending : Text) : Prop := ending = ['\n'] ∨ ending = crlf

lemma newlineOf_isEnd (text : Text) : IsEnd (newlineOf text) := by
  unfold newlineOf
  split
  · exact .inr rfl
  · exact .inl rfl

lemma breakLines_end {ending : Text} (h : IsEnd ending) (current rest : Text) :
    breakLines current (ending ++ rest) = (current.reverse, ending) :: breakLines [] rest := by
  rcases h with rfl | rfl
  · rw [List.singleton_append, breakLines]
    · rfl
    · intro rest' hsame
      cases hsame
  · rfl

lemma breakLines_line {line ending : Text} (hline : Unbroken line) (hend : IsEnd ending) (rest : Text) :
    breakLines [] (line ++ (ending ++ rest)) = (line, ending) :: breakLines [] rest := by
  rw [breakLines_append hline, breakLines_end hend, List.append_nil, List.reverse_reverse]

def pieces (ending final : Text) : List Line → List (Line × Text)
  | [] => []
  | [line] => if line = [] ∧ final = [] then [] else [(line, final)]
  | line :: next :: rest => (line, ending) :: pieces ending final (next :: rest)

lemma breakLines_pieces {ending final : Text} (hend : IsEnd ending) (hfinal : final = [] ∨ IsEnd final) {lines : List Line}
    (hne : lines ≠ []) (hlines : ∀ line ∈ lines, Unbroken line) :
    breakLines [] (List.intercalate ending lines ++ final) = pieces ending final lines := by
  induction lines with
  | nil => exact absurd rfl hne
  | cons line rest ih =>
    have hline := hlines line (List.mem_cons_self ..)
    cases rest with
    | nil =>
      rw [List.intercalate_singleton, pieces]
      rcases hfinal with rfl | hfinal
      · rw [breakLines_append hline, List.append_nil]
        cases line with
        | nil => rfl
        | cons c line => simp [breakLines]
      · have hlast := breakLines_line hline hfinal []
        have hfilled : final ≠ [] := by
          rcases hfinal with rfl | rfl <;> decide
        rw [List.append_nil] at hlast
        rw [hlast, if_neg fun h => hfilled h.2]
        rfl
    | cons next rest =>
      rw [List.intercalate_cons_cons, pieces, List.append_assoc, List.append_assoc, breakLines_line hline hend,
        ih (List.cons_ne_nil _ _) fun l hl => hlines l (List.mem_cons_of_mem _ hl)]

lemma breakLines_unbroken {current : Text} (hcurrent : Unbroken current) (text : Text) :
    ∀ piece ∈ breakLines current text, Unbroken piece.1 ∧ (piece.1 ≠ [] ∨ piece.2 ≠ []) := by
  have hreverse : ∀ {line : Text}, Unbroken line → Unbroken line.reverse := fun h c hc => h c (List.mem_reverse.mp hc)
  -- a piece with its end, and those of the text behind it
  have hended : ∀ {line ending : Text} {pieces : List (Text × Text)}, Unbroken line → ending ≠ [] →
      (∀ piece ∈ pieces, Unbroken piece.1 ∧ (piece.1 ≠ [] ∨ piece.2 ≠ [])) →
      ∀ piece ∈ (line.reverse, ending) :: pieces, Unbroken piece.1 ∧ (piece.1 ≠ [] ∨ piece.2 ≠ []) :=
    fun hline hending hpieces => List.forall_mem_cons.mpr ⟨⟨hreverse hline, .inr hending⟩, hpieces⟩
  fun_induction breakLines current text with
  | case1 current hempty => nofun
  | case2 current hfilled =>
    intro piece hpiece
    rw [List.mem_singleton.mp hpiece]
    refine ⟨hreverse hcurrent, .inl ?_⟩
    simpa using hfilled
  | case3 current rest ih => exact hended hcurrent (List.cons_ne_nil _ _) (ih nofun)
  | case4 current c rest _ hbreak ih => exact hended hcurrent (List.cons_ne_nil _ _) (ih nofun)
  | case5 current c rest _ hbreak ih =>
    refine ih fun d hd => ?_
    cases List.mem_cons.mp hd with
    | inl hsame =>
      rw [hsame]
      simpa using hbreak
    | inr hearlier => exact hcurrent d hearlier

lemma splitLines_unbroken (text : Text) : ∀ line ∈ splitLines text, Unbroken line := by
  intro line hline
  obtain ⟨piece, hpiece, rfl⟩ := List.mem_map.mp hline
  exact (breakLines_unbroken (fun _ hc => absurd hc List.not_mem_nil) text piece hpiece).1

def oldLine : Line → Option Line
  | ' ' :: text => some text
  | '-' :: text => some text
  | _ => none

def oldLines (body : List Line) : List Line := body.filterMap oldLine

variable {digits : Digits} {source : List Line} {s s' : Progress} {body : List Line}

structure Applied (source : List Line) (body : List Line) (s s' : Progress) (news : List Line) : Prop where
  result : s'.result = s.result ++ news
  position : s'.position = s.position + (oldLines body).length
  consumed : s'.consumed = s.consumed + (oldLines body).length
  produced : s'.produced = s.produced + news.length
  old : oldLines body <+: source.drop s.position
  unbroken : (∀ line ∈ source, Unbroken line) → (∀ line ∈ body, Unbroken line) → ∀ line ∈ news, Unbroken line

lemma prefix_drop {text : Line} {position : ℕ} (h : source[position]? = some text) : [text] <+: source.drop position := by
  rw [List.drop_eq_getElem?_toList_append, h]
  exact List.prefix_append ..

lemma applyLine_ok {line : Line} (h : applyLine source s line = .ok s') : ∃ news, Applied source [line] s s' news := by
  unfold applyLine at h
  split at h
  · rename_i hnone
    cases h
    have hold : oldLines [line] = [] := by
      rw [hnone]
      rfl
    exact ⟨[], by simp, by simp [hold], by simp [hold], by simp, by simp [hold], by simp⟩
  · split at h
    · rename_i text _
      obtain ⟨_, hrequire, hs⟩ := ok_of_bind h
      have hsource := of_require hrequire
      cases hs
      refine ⟨[text], rfl, rfl, rfl, rfl, prefix_drop hsource, fun hunbroken _ l hl => ?_⟩
      rw [List.mem_singleton.mp hl]
      exact hunbroken text (List.mem_of_getElem? hsource)
    · rename_i text _
      obtain ⟨_, hrequire, hs⟩ := ok_of_bind h
      have hsource := of_require hrequire
      cases hs
      exact ⟨[], by simp, rfl, rfl, rfl, prefix_drop hsource, by simp⟩
    · rename_i text _
      cases h
      refine ⟨[text], rfl, rfl, rfl, rfl, List.nil_prefix, fun _ hunbroken l hl => ?_⟩
      rw [List.mem_singleton.mp hl]
      exact fun c hc => hunbroken _ (List.mem_singleton_self _) c (List.mem_cons_of_mem _ hc)
    · cases h

lemma Applied.cons {line : Line} {s'' : Progress} {news news' : List Line} (h : Applied source [line] s s' news)
    (h' : Applied source body s' s'' news') : Applied source (line :: body) s s'' (news ++ news') := by
  have hlines : oldLines (line :: body) = oldLines [line] ++ oldLines body := by
    simp [oldLines, List.filterMap_cons]
    cases oldLine line <;> rfl
  refine ⟨?_, ?_, ?_, ?_, ?_, ?_⟩
  · rw [h'.result, h.result, List.append_assoc]
  · rw [h'.position, h.position, hlines, List.length_append, Nat.add_assoc]
  · rw [h'.consumed, h.consumed, hlines, List.length_append, Nat.add_assoc]
  · rw [h'.produced, h.produced, List.length_append, Nat.add_assoc]
  · obtain ⟨rest, hrest⟩ := h.old
    have hnext := h'.old
    rw [h.position, ← List.drop_drop, ← hrest, List.drop_left] at hnext
    rw [hlines, ← hrest]
    exact (List.prefix_append_right_inj _).mpr hnext
  · intro hsource hbody l hl
    cases List.mem_append.mp hl with
    | inl hfirst => exact h.unbroken hsource (fun m hm => hbody m (List.mem_singleton.mp hm ▸ List.mem_cons_self ..)) l hfirst
    | inr hlater => exact h'.unbroken hsource (fun m hm => hbody m (List.mem_cons_of_mem _ hm)) l hlater

lemma applyLines_ok (h : body.foldlM (applyLine source) s = .ok s') : ∃ news, Applied source body s s' news := by
  induction body generalizing s with
  | nil =>
    cases h
    exact ⟨[], by simp, by simp [oldLines], by simp [oldLines], by simp, by simp [oldLines], by simp⟩
  | cons line body ih =>
    obtain ⟨mid, hline, hrest⟩ := ok_of_bind (by simpa [List.foldlM_cons] using h)
    obtain ⟨news, hfirst⟩ := applyLine_ok hline
    obtain ⟨news', hlater⟩ := ih hrest
    exact ⟨news ++ news', hfirst.cons hlater⟩

structure Taken (source : List Line) (hunk : Line × List Line) (header : Header) (t t' : ℕ × List Line) (news : List Line) : Prop where
  ahead : t.1 ≤ header.target
  within : header.target ≤ source.length
  oldCount : (oldLines hunk.2).length = header.oldCount
  newCount : news.length = header.newCount
  old : oldLines hunk.2 <+: source.drop header.target
  position : t'.1 = header.target + header.oldCount
  result : t'.2 = t.2 ++ slice source t.1 header.target ++ news
  unbroken : (∀ line ∈ source, Unbroken line) → (∀ line ∈ hunk.2, Unbroken line) → ∀ line ∈ news, Unbroken line

lemma applyHunk_ok {hunk : Line × List Line} {t t' : ℕ × List Line} (h : applyHunk digits source t hunk = .ok t') :
    ∃ header news, readHeader digits hunk.1 = some header ∧ Taken source hunk header t t' news := by
  obtain ⟨header, hheader, h⟩ := ok_of_bind h
  obtain ⟨_, hrange, h⟩ := ok_of_bind h
  obtain ⟨done, hdone, h⟩ := ok_of_bind h
  obtain ⟨_, hcount, h⟩ := ok_of_bind h
  cases h
  have hread : readHeader digits hunk.1 = some header := by
    cases hread : readHeader digits hunk.1 with
    | none =>
      rw [hread] at hheader
      cases hheader
    | some _ =>
      rw [hread] at hheader
      cases hheader
      rfl
  obtain ⟨hahead, hwithin⟩ := of_require hrange
  obtain ⟨hold, hnew⟩ := of_require hcount
  obtain ⟨news, happlied⟩ := applyLines_ok hdone
  have hconsumed := happlied.consumed
  have hproduced := happlied.produced
  rw [Nat.zero_add] at hconsumed hproduced
  refine ⟨header, news, hread, hahead, hwithin, by rw [← hconsumed, hold], by rw [← hproduced, hnew], happlied.old, ?_, happlied.result,
    happlied.unbroken⟩
  rw [happlied.position, ← hconsumed, hold]

/-- The line `k` of a source is in no hunk and comes out as the line `k'`; the source is read up to
    `i`, and `j` lines are written. -/
def Outside (lines : ℕ) : List Header → ℕ → ℕ → ℕ → ℕ → Prop
  | [], i, j, k, k' => i ≤ k ∧ k < lines ∧ k' = j + (k - i)
  | header :: rest, i, j, k, k' =>
    (i ≤ k ∧ k < header.target ∧ k' = j + (k - i)) ∨
      Outside lines rest (header.target + header.oldCount) (j + (header.target - i) + header.newCount) k k'

def resultLength (lines : ℕ) : List Header → ℕ → ℕ → ℕ
  | [], i, j => j + (lines - i)
  | header :: rest, i, j => resultLength lines rest (header.target + header.oldCount) (j + (header.target - i) + header.newCount)

def headersOf (digits : Digits) (hunks : List (Line × List Line)) : List Header := hunks.filterMap fun hunk => readHeader digits hunk.1

def resultOf (source : List Line) (t : ℕ × List Line) : List Line := t.2 ++ source.drop t.1

variable {hunks : List (Line × List Line)} {t t' : ℕ × List Line}

lemma getElem?_slice {xs : List Line} {i j k : ℕ} (hk : i ≤ k) (hj : k < j) : (slice xs i j)[k - i]? = xs[k]? := by
  rw [slice, List.getElem?_drop, List.getElem?_take_of_lt (by omega)]
  congr 1
  omega

variable (h : hunks.foldlM (applyHunk digits source) t = .ok t')

include h in
lemma applyHunks_prefix : t.2 <+: t'.2 := by
  induction hunks generalizing t with
  | nil =>
    cases h
    exact List.prefix_rfl
  | cons hunk hunks ih =>
    obtain ⟨mid, hhunk, hrest⟩ := ok_of_bind (by simpa [List.foldlM_cons] using h)
    obtain ⟨header, news, -, htaken⟩ := applyHunk_ok hhunk
    refine List.IsPrefix.trans ?_ (ih hrest)
    rw [htaken.result, List.append_assoc]
    exact List.prefix_append ..

include h in
lemma applyHunks_outside {k k' : ℕ} (hout : Outside source.length (headersOf digits hunks) t.1 t.2.length k k') :
    (resultOf source t')[k']? = source[k]? ∧ k < source.length := by
  induction hunks generalizing t with
  | nil =>
    cases h
    obtain ⟨hfrom, hbelow, rfl⟩ := hout
    refine ⟨?_, hbelow⟩
    rw [resultOf, List.getElem?_append_right (by omega), List.getElem?_drop]
    congr 1
    omega
  | cons hunk hunks ih =>
    obtain ⟨mid, hhunk, hrest⟩ := ok_of_bind (by simpa [List.foldlM_cons] using h)
    obtain ⟨header, news, hread, htaken⟩ := applyHunk_ok hhunk
    have hheaders : headersOf digits (hunk :: hunks) = header :: headersOf digits hunks := by simp [headersOf, hread]
    have hslice := @length_slice Line source t.1 header.target htaken.within
    have hlength : mid.2.length = t.2.length + (header.target - t.1) + header.newCount := by
      rw [htaken.result, List.length_append, List.length_append, hslice, htaken.newCount]
    rw [hheaders] at hout
    rcases hout with ⟨hfrom, hbelow, rfl⟩ | hlater
    · obtain ⟨rest, hrest'⟩ := applyHunks_prefix hrest
      have hmid : mid.2[t.2.length + (k - t.1)]? = source[k]? := by
        rw [htaken.result, List.append_assoc, List.getElem?_append_right (by omega), List.getElem?_append_left (by omega),
          ← getElem?_slice hfrom hbelow]
        congr 1
        omega
      refine ⟨?_, Nat.lt_of_lt_of_le hbelow htaken.within⟩
      rw [resultOf, ← hrest', List.append_assoc, List.getElem?_append_left (by omega), hmid]
    · refine ih hrest ?_
      rw [htaken.position, hlength]
      exact hlater

include h in
lemma length_resultOf :
    (resultOf source t').length = resultLength source.length (headersOf digits hunks) t.1 t.2.length := by
  induction hunks generalizing t with
  | nil =>
    cases h
    rw [resultOf, List.length_append, List.length_drop]
    rfl
  | cons hunk hunks ih =>
    obtain ⟨mid, hhunk, hrest⟩ := ok_of_bind (by simpa [List.foldlM_cons] using h)
    obtain ⟨header, news, hread, htaken⟩ := applyHunk_ok hhunk
    have hheaders : headersOf digits (hunk :: hunks) = header :: headersOf digits hunks := by simp [headersOf, hread]
    have hslice := @length_slice Line source t.1 header.target htaken.within
    rw [ih hrest, hheaders, resultLength, htaken.position, htaken.result, List.length_append, List.length_append, hslice, htaken.newCount]

lemma resultOf_unbroken (hsource : ∀ line ∈ source, Unbroken line) (hhunks : ∀ hunk ∈ hunks, ∀ line ∈ hunk.2, Unbroken line)
    (ht : ∀ line ∈ t.2, Unbroken line) (h : hunks.foldlM (applyHunk digits source) t = .ok t') :
    ∀ line ∈ resultOf source t', Unbroken line := by
  induction hunks generalizing t with
  | nil =>
    cases h
    intro line hline
    cases List.mem_append.mp hline with
    | inl hwritten => exact ht line hwritten
    | inr hrest => exact hsource line (List.mem_of_mem_drop hrest)
  | cons hunk hunks ih =>
    obtain ⟨mid, hhunk, hrest⟩ := ok_of_bind (by simpa [List.foldlM_cons] using h)
    obtain ⟨header, news, -, htaken⟩ := applyHunk_ok hhunk
    refine ih (fun other hother => hhunks other (List.mem_cons_of_mem _ hother)) (fun line hline => ?_) hrest
    rw [htaken.result] at hline
    rcases List.mem_append.mp hline with hline | hnew
    · cases List.mem_append.mp hline with
      | inl hwritten => exact ht line hwritten
      | inr hcopied => exact hsource line (List.mem_of_mem_take (List.mem_of_mem_drop hcopied))
    · exact htaken.unbroken hsource (hhunks hunk (List.mem_cons_self ..)) line hnew

include h in
lemma applyHunks_old :
    ∀ hunk ∈ hunks, ∃ header, readHeader digits hunk.1 = some header ∧ oldLines hunk.2 <+: source.drop header.target := by
  induction hunks generalizing t with
  | nil => exact fun hunk hhunk => absurd hhunk List.not_mem_nil
  | cons first hunks ih =>
    obtain ⟨mid, hfirst, hrest⟩ := ok_of_bind (by simpa [List.foldlM_cons] using h)
    intro hunk hhunk
    cases List.mem_cons.mp hhunk with
    | inl hsame =>
      obtain ⟨header, news, hread, htaken⟩ := applyHunk_ok hfirst
      exact hsame ▸ ⟨header, hread, htaken.old⟩
    | inr hlater => exact ih hrest hunk hlater

end PromptForge.UnifiedPatches
