import PromptForge.Cursors
import PromptForge.JsonTextLaws
import PromptForge.ToolEdits

/-!
# Files read a page at a time

A read returns some lines of a file, numbered, and the line at which the next read goes on.
-/
namespace PromptForge.PagedReading
open Cursors ToolEdits
open TaskContracts (splitLinesKeeping)

/-- What `_read_overlay_text` returns: every policy bounds the size of a file by this. -/
structure Content where
  text : Text
  small : textBytes text ≤ 512000

def Content.lines (c : Content) : List Text := splitLinesKeeping c.text

/-- The arguments of a call; the defaults are those of the executor. -/
structure Arguments where
  offset : ℤ := 1
  limit : ℤ := 200

def Arguments.valid (a : Arguments) : Prop :=
  (1 ≤ a.offset ∧ a.offset ≤ 10000000) ∧ 1 ≤ a.limit ∧ a.limit ≤ 2000

instance (a : Arguments) : Decidable a.valid :=
  inferInstanceAs (Decidable ((1 ≤ a.offset ∧ a.offset ≤ 10000000) ∧ 1 ≤ a.limit ∧ a.limit ≤ 2000))

def dumped (line : Text) : ℕ := (JsonText.writeString (String.ofList line)).length

def label (number : ℕ) : Text := Nat.toDigits 10 number ++ ": ".toList

def annotated (number : ℕ) (line : Text) : Text :=
  label number ++ line.rdropWhile (fun c => c = '\n' ∨ c = '\r') ++ ['\n']

def annotatedCut (number : ℕ) (line : Text) : Text := label number ++ line ++ "\n[remainder of line omitted]\n".toList

def size (number : ℕ) (line : Text) : ℕ := dumped line + dumped (annotated number line)

def cutSize (number : ℕ) (line : Text) : ℕ := dumped line + dumped (annotatedCut number line)

/-- The loop that halves a line; `none` where it never ends. -/
def halved (number : ℕ) (line : Text) : Option Text :=
  if cutSize number line ≤ 12000 then some line
  else if hline : line = [] then none
  else halved number (line.take (line.length / 2))
termination_by line.length
decreasing_by
  have := List.length_pos_iff.mpr hline
  simp only [List.length_take]
  omega

/-- What a page has taken. -/
structure Taken where
  selected : List Text
  numbered : List Text
  truncated : List ℕ

def Taken.empty : Taken := ⟨[], [], []⟩

/-- The loop over the lines from `number` on, after `used` characters. -/
def take (taken : Taken) (used number : ℕ) : List Text → Option Taken
  | [] => some taken
  | line :: rest =>
    if 12000 < used + size number line then
      if taken.selected ≠ [] then some taken
      else
        (halved number (line.take 2000)).map fun cut =>
          ⟨taken.selected ++ [cut], taken.numbered ++ [annotatedCut number cut], taken.truncated ++ [number]⟩
    else
      take ⟨taken.selected ++ [line], taken.numbered ++ [annotated number line], taken.truncated⟩
        (used + size number line) (number + 1) rest

structure Page where
  path : String
  offset : ℕ
  endLine : Option ℕ
  totalLines : ℕ
  nextOffset : Option ℕ
  content : Text
  numberedContent : Text
  contentSha256 : String
  truncatedLines : List ℕ
  citationRanges : List (ℕ × ℕ)

/-- Ranges of eighty lines from `start` on, to the line before `stop`. -/
def ranges (start stop : ℕ) : List (ℕ × ℕ) :=
  (List.range' start ((stop - start + 79) / 80) 80).map fun first => (first, min (first + 79) (stop - 1))

variable (sha256 : Text → String) (path : String)

def page (c : Content) (offset limit : ℕ) : Option Page :=
  (take .empty 0 offset ((c.lines.drop (offset - 1)).take limit)).map fun taken =>
    let stop := offset + taken.selected.length
    { path := path
      offset := offset
      endLine := if taken.selected ≠ [] then some (stop - 1) else none
      totalLines := c.lines.length
      nextOffset := if stop ≤ c.lines.length then some stop else none
      content := taken.selected.flatten
      numberedContent := taken.numbered.flatten
      contentSha256 := sha256 c.text
      truncatedLines := taken.truncated
      citationRanges := if taken.truncated = [] then ranges offset stop else [] }

/-- `READ_FILE`: nothing where the arguments are refused. -/
def readFile (c : Content) (a : Arguments) : Option Page :=
  if a.valid then page sha256 path c a.offset.toNat a.limit.toNat else none

lemma dumped_le (line : Text) : dumped line ≤ 2 + 12 * line.length := by
  have h : (line.flatMap JsonText.escapeChar).length ≤ 12 * line.length := by
    induction line with
    | nil => simp
    | cons c rest ih =>
      have hc := JsonText.length_escapeChar c
      simp only [List.flatMap_cons, List.length_append, List.length_cons]
      omega
  simp only [dumped, JsonText.writeString, String.toList_ofList, List.length_cons, List.length_append, List.length_nil]
  omega

lemma cutSize_nil {number : ℕ} (h : number ≤ 10000000) : cutSize number [] ≤ 12000 := by
  have hdigits : (Nat.toDigits 10 number).length ≤ 8 :=
    (Nat.length_toDigits_le_iff (by norm_num) (by norm_num)).mpr (by omega)
  have hempty := dumped_le []
  have hcut := dumped_le (annotatedCut number [])
  have hlength : (annotatedCut number []).length = (Nat.toDigits 10 number).length + 31 := by simp [annotatedCut, label]
  simp only [List.length_nil] at hempty
  simp only [cutSize]
  omega

lemma exists_halved {number : ℕ} (h : number ≤ 10000000) (line : Text) : ∃ cut, halved number line = some cut ∧ cut <+: line := by
  induction line using halved.induct number with
  | case1 line hfits => exact ⟨line, by rw [halved, if_pos hfits], List.prefix_rfl⟩
  | case2 hfits => exact absurd (cutSize_nil h) hfits
  | case3 line hfits hne ih =>
    obtain ⟨cut, hcut, hbegin⟩ := ih
    exact ⟨cut, by rw [halved, if_neg hfits, dif_neg hne, hcut], hbegin.trans (List.take_prefix _ _)⟩

/-- What is shown of the lines from `number` on: each line, but a beginning of one that is
    named as truncated. -/
def Shows (number : ℕ) (lines shown : List Text) (truncated : List ℕ) : Prop :=
  ∀ i line cut, lines[i]? = some line → shown[i]? = some cut → cut <+: line ∧ (number + i ∉ truncated → cut = line)

def Oversized (number : ℕ) (lines : List Text) (truncated : List ℕ) : Prop :=
  ∀ n ∈ truncated, ∃ i line, n = number + i ∧ lines[i]? = some line ∧ 12000 < size n line

lemma shows_take (number n : ℕ) (lines : List Text) : Shows number lines (lines.take n) [] := by
  intro i line cut hline hcut
  rw [List.getElem?_take, hline] at hcut
  split at hcut
  · cases hcut
    exact ⟨List.prefix_rfl, fun _ => rfl⟩
  · cases hcut

lemma Shows.append {number : ℕ} {lines xs ys : List Text} {ts us : List ℕ} (hxs : Shows number lines xs ts)
    (hys : Shows (number + xs.length) (lines.drop xs.length) ys us) : Shows number lines (xs ++ ys) (ts ++ us) := by
  intro i line cut hline hcut
  by_cases hi : i < xs.length
  · rw [List.getElem?_append_left hi] at hcut
    obtain ⟨hbegin, heq⟩ := hxs i line cut hline hcut
    exact ⟨hbegin, fun hnot => heq fun hmem => hnot (List.mem_append_left _ hmem)⟩
  · rw [List.getElem?_append_right (by omega)] at hcut
    have hrest : (lines.drop xs.length)[i - xs.length]? = some line := by
      rw [List.getElem?_drop, show xs.length + (i - xs.length) = i by omega, hline]
    obtain ⟨hbegin, heq⟩ := hys (i - xs.length) line cut hrest hcut
    refine ⟨hbegin, fun hnot => heq fun hmem => hnot (List.mem_append_right _ ?_)⟩
    rwa [show number + xs.length + (i - xs.length) = number + i by omega] at hmem

lemma Oversized.append {number n : ℕ} {lines : List Text} {ts us : List ℕ} (hts : Oversized number lines ts)
    (hus : Oversized (number + n) (lines.drop n) us) : Oversized number lines (ts ++ us) := by
  intro m hm
  cases List.mem_append.mp hm with
  | inl hmem => exact hts m hmem
  | inr hmem =>
    obtain ⟨i, line, heq, hline, hsize⟩ := hus m hmem
    exact ⟨n + i, line, by omega, by rwa [List.getElem?_drop] at hline, hsize⟩

lemma take_later {taken : Taken} (hsome : taken.selected ≠ []) (used number : ℕ) (lines : List Text) :
    ∃ n numbered, n ≤ lines.length ∧ take taken used number lines = some ⟨taken.selected ++ lines.take n, numbered, taken.truncated⟩ := by
  induction lines generalizing taken used number with
  | nil => exact ⟨0, taken.numbered, le_rfl, by simp [take]⟩
  | cons line rest ih =>
    by_cases hfull : 12000 < used + size number line
    · exact ⟨0, taken.numbered, Nat.zero_le _, by simp [take, hfull, hsome]⟩
    · obtain ⟨n, numbered, hn, htake⟩ := @ih ⟨taken.selected ++ [line], taken.numbered ++ [annotated number line], taken.truncated⟩
        (by simp) (used + size number line) (number + 1)
      refine ⟨n + 1, numbered, Nat.succ_le_succ hn, ?_⟩
      rw [take, if_neg hfull, htake]
      simp

/-- What a page has taken of the lines from `number` on. -/
structure TakenOf (number : ℕ) (lines : List Text) (taken : Taken) : Prop where
  within : taken.selected.length ≤ lines.length
  some_of : lines ≠ [] → 0 < taken.selected.length
  shows : Shows number lines taken.selected taken.truncated
  oversized : Oversized number lines taken.truncated

lemma exists_taken {number : ℕ} (h : number ≤ 10000000) (lines : List Text) :
    ∃ taken, take .empty 0 number lines = some taken ∧ TakenOf number lines taken := by
  cases lines with
  | nil => exact ⟨.empty, rfl, by simp [Taken.empty], by simp, by simp [Shows], by simp [Oversized, Taken.empty]⟩
  | cons line rest =>
    by_cases hfull : 12000 < 0 + size number line
    · obtain ⟨cut, hcut, hbegin⟩ := exists_halved h (line.take 2000)
      refine ⟨⟨[cut], [annotatedCut number cut], [number]⟩, ?_, by simp, by simp, ?_, ?_⟩
      · rw [take, if_pos hfull, hcut]
        rfl
      · intro i other shown hother hshown
        cases i with
        | zero =>
          cases hother
          cases hshown
          exact ⟨hbegin.trans (List.take_prefix _ _), fun hnot => absurd (List.mem_singleton.mpr rfl) hnot⟩
        | succ i => simp at hshown
      · intro n hn
        rw [List.mem_singleton] at hn
        exact ⟨0, line, hn, rfl, by rw [hn]; omega⟩
    · obtain ⟨n, numbered, hn, htake⟩ := @take_later ⟨[line], [annotated number line], []⟩ (by simp) (0 + size number line) (number + 1) rest
      refine ⟨⟨line :: rest.take n, numbered, []⟩, ?_, by simp, by simp, shows_take number (n + 1) (line :: rest), by simp [Oversized]⟩
      rw [take, if_neg hfull]
      exact htake

lemma length_lines (c : Content) : c.lines.length ≤ 512000 :=
  (TaskContracts.length_splitLinesKeeping c.text).trans ((length_le_textBytes c.text).trans c.small)

lemma flatten_lines (c : Content) : c.lines.flatten = c.text := TaskContracts.flatten_splitLinesKeeping c.text

variable {sha256 path} {c : Content}

structure PageOf (c : Content) (offset : ℕ) (selected : List Text) (p : Page) : Prop where
  offset_eq : p.offset = offset
  content : p.content = selected.flatten
  next : p.nextOffset = if offset + selected.length ≤ c.lines.length then some (offset + selected.length) else none
  within : selected.length ≤ c.lines.length - (offset - 1)
  some_of : offset ≤ c.lines.length → 0 < selected.length
  shows : Shows offset (c.lines.drop (offset - 1)) selected p.truncatedLines
  oversized : Oversized offset (c.lines.drop (offset - 1)) p.truncatedLines

lemma getElem?_of_take {lines : List Text} {n i : ℕ} {line : Text} (h : (lines.take n)[i]? = some line) : lines[i]? = some line := by
  rw [List.getElem?_take] at h
  split at h
  · exact h
  · cases h

lemma exists_page {a : Arguments} (ha : a.valid) :
    ∃ p selected, readFile sha256 path c a = some p ∧ PageOf c a.offset.toNat selected p := by
  obtain ⟨taken, htake, h⟩ := @exists_taken a.offset.toNat (by have := ha.1.2; omega)
    ((c.lines.drop (a.offset.toNat - 1)).take a.limit.toNat)
  have hwithin := h.within
  simp only [List.length_take, List.length_drop] at hwithin
  refine ⟨_, taken.selected, by rw [readFile, if_pos ha, page, htake]; rfl, rfl, rfl, rfl, by omega, ?_, ?_, ?_⟩
  · intro hle
    apply h.some_of
    have hlimit := ha.2.1
    have hoffset := ha.1.1
    rw [ne_eq, ← List.length_eq_zero_iff, List.length_take, List.length_drop]
    omega
  · intro i line cut hline hcut
    have hlt := (List.getElem?_eq_some_iff.mp hcut).1
    refine h.shows i line cut ?_ hcut
    rw [List.getElem?_take, if_pos (by omega), hline]
  · intro n hn
    obtain ⟨i, line, heq, hline, hsize⟩ := h.oversized n hn
    exact ⟨i, line, heq, getElem?_of_take hline, hsize⟩

abbrev Limit := {limit : ℕ // 1 ≤ limit ∧ limit ≤ 2000}

def readFrom (sha256 : Text → String) (path : String) (c : Content) (limit : Limit) (offset : ℕ) : Option Page :=
  readFile sha256 path c ⟨offset, limit.val⟩

lemma exists_readFrom (limit : Limit) {offset : ℕ} (hfirst : 1 ≤ offset) (hlast : offset ≤ max 1 c.lines.length) :
    ∃ p selected, readFrom sha256 path c limit offset = some p ∧ PageOf c offset selected p := by
  have hlines := length_lines c
  have hlimit := limit.property
  have hvalid : Arguments.valid ⟨offset, limit.val⟩ := by
    simp only [Arguments.valid]
    omega
  exact exists_page hvalid

lemma shown_of_followed {limit : Limit} {offset : ℕ} {pages : List Page}
    (h : Followed (readFrom sha256 path c limit) Page.nextOffset offset pages)
    (hfirst : 1 ≤ offset) (hlast : offset ≤ max 1 c.lines.length) :
    (∀ p ∈ pages, offset ≤ p.offset) ∧ (pages.map Page.offset).Pairwise (· < ·) ∧
    ∃ shown, pages.flatMap Page.content = shown.flatten ∧ shown.length = c.lines.length - (offset - 1) ∧
      Shows offset (c.lines.drop (offset - 1)) shown (pages.flatMap Page.truncatedLines) ∧
      Oversized offset (c.lines.drop (offset - 1)) (pages.flatMap Page.truncatedLines) := by
  induction h with
  | last hread hnext =>
    obtain ⟨p, selected, hpage, hp⟩ := @exists_readFrom sha256 path c limit _ hfirst hlast
    cases hread.symm.trans hpage
    have hall := hp.next
    rw [hnext] at hall
    split at hall
    · cases hall
    · have hwithin := hp.within
      refine ⟨by simp [hp.offset_eq], by simp, selected, by simpa using hp.content, by omega, by simpa using hp.shows, by simpa using hp.oversized⟩
  | step hread hnext hrest ih =>
    obtain ⟨p, selected, hpage, hp⟩ := @exists_readFrom sha256 path c limit _ hfirst hlast
    cases hread.symm.trans hpage
    have hall := hp.next
    rw [hnext] at hall
    split at hall
    · rename_i offset after p rest hle
      cases hall
      have hpos := hp.some_of (by omega)
      obtain ⟨hlater, hpairs, shown, hcontent, hlength, hshows, hover⟩ := ih (by omega) (by omega)
      have hdrop : (c.lines.drop (offset - 1)).drop selected.length = c.lines.drop (offset + selected.length - 1) := by
        rw [List.drop_drop, show offset - 1 + selected.length = offset + selected.length - 1 by omega]
      rw [← hdrop] at hshows hover
      refine ⟨?_, ?_, selected ++ shown, by simp [hp.content, hcontent], by simp only [List.length_append]; omega, ?_, ?_⟩
      · intro q hq
        cases List.mem_cons.mp hq with
        | inl heq => rw [heq, hp.offset_eq]
        | inr hmem => exact (Nat.le_add_right _ _).trans (hlater q hmem)
      · rw [List.map_cons, List.pairwise_cons]
        refine ⟨fun later hmem => ?_, hpairs⟩
        obtain ⟨q, hq, rfl⟩ := List.mem_map.mp hmem
        have hle := hlater q hq
        rw [hp.offset_eq]
        omega
      · exact hp.shows.append hshows
      · exact hp.oversized.append hover
    · cases hall

/-- The offsets that the pages name lead through the file in finitely many calls; the pages are its
    lines, but for those that are too long for a page. -/
theorem paged_reading_complete (sha256 : Text → String) (path : String) (c : Content) (limit : Limit) :
    ∃ pages, Followed (readFrom sha256 path c limit) Page.nextOffset 1 pages ∧
      (∀ others, Followed (readFrom sha256 path c limit) Page.nextOffset 1 others → others = pages) ∧
      pages.length ≤ max 1 c.lines.length ∧ (pages.map Page.offset).Pairwise (· < ·) ∧
      c.lines.flatten = c.text ∧
      ∃ shown, pages.flatMap Page.content = shown.flatten ∧ shown.length = c.lines.length ∧
        Shows 1 c.lines shown (pages.flatMap Page.truncatedLines) ∧
        Oversized 1 c.lines (pages.flatMap Page.truncatedLines) := by
  have hforward : ∀ offset, 1 ≤ offset → offset ≤ max 1 c.lines.length → ∃ p, readFrom sha256 path c limit offset = some p ∧
      ∀ after, p.nextOffset = some after → offset < after ∧ after ≤ max 1 c.lines.length := by
    intro offset hfirst hlast
    obtain ⟨p, selected, hread, hp⟩ := @exists_readFrom sha256 path c limit offset hfirst hlast
    refine ⟨p, hread, fun after hafter => ?_⟩
    rw [hp.next] at hafter
    split at hafter
    · cases hafter
      have hpos := hp.some_of (by omega)
      omega
    · cases hafter
  obtain ⟨pages, hpages, hlength⟩ := exists_followed hforward (le_refl 1) (le_max_left 1 _)
  obtain ⟨_, hpairs, shown, hcontent, hshown, hshows, hover⟩ := shown_of_followed hpages (le_refl 1) (le_max_left 1 _)
  exact ⟨pages, hpages, fun others hothers => hpages.unique hothers, by omega, hpairs, flatten_lines c,
    shown, hcontent, by omega, hshows, hover⟩

end PromptForge.PagedReading
