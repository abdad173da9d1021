import DataCopilot.Retrieval.Markdown

/-! What the sections of a Markdown document cite: the blocks of lines between its headings, each
with its range of lines. -/
namespace DataCopilot.Retrieval
open Text

def Blank (line : Line) : Prop := ∀ c ∈ line, isSpace c

/-- The lines behind the first `start` lines and up to the line `last`, with the range that starts
at the heading over them. -/
structure Block where
  title : String
  first : Nat
  start : Nat
  last : Nat

def Block.body (b : Block) (lines : List Line) : List Line := (lines.take b.last).drop b.start

/-- The body of a block starts behind its heading, or with the document. -/
def Opens (lines : List Line) (default : String) (start : Nat) (title : String) (first : Nat) : Prop :=
  (start = 0 ∧ title = default ∧ first = 1) ∨
    (1 ≤ start ∧ first = start ∧ ∃ line, lines[start - 1]? = some line ∧ headingTitle line = some title)

/-- The lines from `start` on and before `stop` are not headings. -/
def Plain (lines : List Line) (start stop : Nat) : Prop :=
  ∀ n line, start ≤ n → n < stop → lines[n]? = some line → headingTitle line = none

/-- A heading stands behind `stop` lines, or the end. -/
def Closes (lines : List Line) (stop : Nat) : Prop :=
  stop ≤ lines.length ∧ ∀ line, lines[stop]? = some line → headingTitle line ≠ none

/-- A maximal block of lines that are not headings. -/
structure IsBlock (lines : List Line) (default : String) (b : Block) : Prop where
  opens : Opens lines default b.start b.title b.first
  plain : Plain lines b.start b.last
  closes : Closes lines b.last

structure Cites (lines : List Line) (b : Block) (s : DocumentSection) : Prop where
  title : s.title = b.title
  content : s.content = sectionContent (b.body lines)
  locator : s.sourceLocator = sectionLocator b.first b.last

section Content
variable {body : List Line} {line : Line}

theorem mem_intercalate_part (h : line ∈ body) :
    ∃ a b, ['\n'].intercalate body = a ++ (line ++ b) := by
  induction body with
  | nil => cases h
  | cons first rest ih =>
    cases rest with
    | nil =>
      cases List.mem_singleton.mp h
      exact ⟨[], [], by rw [List.intercalate_singleton, List.nil_append, List.append_nil]⟩
    | cons second rest =>
      rw [List.intercalate_cons_cons]
      cases List.mem_cons.mp h with
      | inl he =>
        cases he
        exact ⟨[], _, by rw [List.nil_append, List.append_assoc]⟩
      | inr hm =>
        obtain ⟨a, b, hab⟩ := ih hm
        exact ⟨first ++ ['\n'] ++ a, b, by rw [hab, List.append_assoc (first ++ ['\n'])]⟩

theorem blank_intercalate (h : ∀ line ∈ body, Blank line) : Blank (['\n'].intercalate body) := by
  induction body with
  | nil => exact fun c hc => by cases hc
  | cons first rest ih =>
    cases rest with
    | nil =>
      rw [List.intercalate_singleton]
      exact h first (List.mem_singleton.mpr rfl)
    | cons second rest =>
      rw [List.intercalate_cons_cons]
      have hr := ih fun line hl => h line (List.mem_cons_of_mem first hl)
      intro c hc
      simp only [List.mem_append, List.mem_singleton] at hc
      obtain (hc | hc) | hc := hc
      · exact h first List.mem_cons_self c hc
      · rw [hc]
        rfl
      · exact hr c hc

theorem content_eq_empty : sectionContent body = "" ↔ ∀ line ∈ body, Blank line := by
  rw [sectionContent, strip_eq_empty, String.toList_ofList]
  constructor
  · intro h line hl c hc
    obtain ⟨a, b, hab⟩ := mem_intercalate_part hl
    apply h c
    rw [hab]
    exact List.mem_append_right a (List.mem_append_left b hc)
  · exact blank_intercalate

theorem strip_line_infix (hl : line ∈ body) (hn : ¬ Blank line) :
    (strip (String.ofList line)).toList <:+: (sectionContent body).toList := by
  obtain ⟨a, b, hab⟩ := mem_intercalate_part hl
  have hx : ∃ c ∈ line, ¬ isSpace c := by
    rw [Blank] at hn
    push Not at hn
    exact hn
  rw [sectionContent, hab, strip_eq_trim, strip_eq_trim]
  simp only [String.toList_ofList]
  exact trim_part isSpace hx a b

end Content

section Blocks
variable {lines : List Line} {default : String} {a b : Block} {n : Nat}

theorem mem_body {line : Line} :
    line ∈ b.body lines ↔ ∃ n, b.start ≤ n ∧ n < b.last ∧ lines[n]? = some line := by
  rw [Block.body, List.mem_iff_getElem?]
  constructor
  · intro h
    obtain ⟨i, hi⟩ := h
    rw [List.getElem?_drop, List.getElem?_take] at hi
    by_cases hl : b.start + i < b.last
    · rw [if_pos hl] at hi
      exact ⟨b.start + i, by omega, hl, hi⟩
    · rw [if_neg hl] at hi
      cases hi
  · intro h
    obtain ⟨n, hs, hl, hn⟩ := h
    refine ⟨n - b.start, ?_⟩
    rw [List.getElem?_drop, List.getElem?_take, if_pos (by omega)]
    rw [show b.start + (n - b.start) = n by omega]
    exact hn

/-- A block that holds the line `n` starts no later than another one. -/
theorem IsBlock.start_le (ha : IsBlock lines default a) (hb : IsBlock lines default b)
    (han : n < a.last) (hbn : b.start ≤ n) : b.start ≤ a.start := by
  by_contra hlt
  rcases hb.opens with ⟨h0, -, -⟩ | ⟨h1, -, line, hl, ht⟩
  · omega
  · have hp := ha.plain (b.start - 1) line (by omega) (by omega) hl
    rw [ht] at hp
    cases hp

theorem IsBlock.last_le (ha : IsBlock lines default a) (hb : IsBlock lines default b)
    (han : a.start ≤ n) (hbn : n < b.last) : a.last ≤ b.last := by
  by_contra hlt
  have hl : b.last < lines.length := by
    have := ha.closes.1
    omega
  have hg : lines[b.last]? = some lines[b.last] := List.getElem?_eq_getElem hl
  exact hb.closes.2 _ hg (ha.plain b.last _ (by omega) (by omega) hg)

/-- A line stands in one block only. -/
theorem IsBlock.unique (ha : IsBlock lines default a) (hb : IsBlock lines default b)
    (has : a.start ≤ n) (hal : n < a.last) (hbs : b.start ≤ n) (hbl : n < b.last) : a = b := by
  have hs : a.start = b.start := Nat.le_antisymm (hb.start_le ha hbl has) (ha.start_le hb hal hbs)
  have hl : a.last = b.last := Nat.le_antisymm (ha.last_le hb has hbl) (hb.last_le ha hbs hal)
  have ho := ha.opens
  rw [hs] at ho
  have hf : a.title = b.title ∧ a.first = b.first := by
    rcases ho with ⟨h0, ht, hf⟩ | ⟨h1, hf, line, hg, ht⟩
    · rcases hb.opens with ⟨-, ht', hf'⟩ | ⟨h1, -, -⟩
      · exact ⟨ht.trans ht'.symm, hf.trans hf'.symm⟩
      · omega
    · rcases hb.opens with ⟨h0, -, -⟩ | ⟨-, hf', line', hg', ht'⟩
      · omega
      · rw [hg] at hg'
        cases hg'
        rw [ht] at ht'
        exact ⟨Option.some.inj ht', hf.trans hf'.symm⟩
  cases a
  cases b
  simp only at hs hl hf
  rw [hf.1, hf.2, hs, hl]

theorem Opens.first_bounds {start first : Nat} {title : String}
    (h : Opens lines default start title first) : 1 ≤ first ∧ start ≤ first ∧ first ≤ start + 1 := by
  rcases h with ⟨h0, -, hf⟩ | ⟨h1, hf, -⟩ <;> omega

/-- A line behind the blocks before, if it is no heading, stands in the block. -/
theorem Opens.start_le {start first n : Nat} {title : String} {line : Line}
    (h : Opens lines default start title first) (hn : first - 1 ≤ n) (hl : lines[n]? = some line)
    (ht : headingTitle line = none) : start ≤ n := by
  rcases h with ⟨h0, -, -⟩ | ⟨h1, hf, opening, ho, hh⟩
  · omega
  · by_contra hlt
    have he : n = start - 1 := by omega
    rw [he, ho] at hl
    rw [Option.some.inj hl, ht] at hh
    cases hh

end Blocks

/-- The sections cite, in their order, all the blocks of the first `k` lines that are not blank. -/
structure Cited (lines : List Line) (default : String) (k : Nat) (blocks : List Block)
    (sections : List DocumentSection) : Prop where
  cites : List.Forall₂ (Cites lines) blocks sections
  block : ∀ b ∈ blocks, IsBlock lines default b ∧ b.last ≤ k ∧ ∃ line ∈ b.body lines, ¬ Blank line
  ordered : blocks.Pairwise fun b c => b.last < c.first
  covered : ∀ n line, n < k → lines[n]? = some line → headingTitle line = none → ¬ Blank line →
    ∃ b ∈ blocks, b.start ≤ n ∧ n < b.last

section Cited
variable {lines : List Line} {default : String} {k stop : Nat} {blocks : List Block} {b : Block}
  {sections : List DocumentSection} {s : DocumentSection}

theorem Cited.start (lines : List Line) (default : String) : Cited lines default 0 [] [] where
  cites := .nil
  block b hb := by cases hb
  ordered := .nil
  covered n line hn := absurd hn (Nat.not_lt_zero n)

/-- The lines of `b` are blank: no section cites it. -/
theorem Cited.skip (h : Cited lines default (b.first - 1) blocks sections)
    (hb : IsBlock lines default b) (hf : b.first - 1 ≤ b.last)
    (hblank : ∀ line ∈ b.body lines, Blank line) : Cited lines default b.last blocks sections where
  cites := h.cites
  block c hc := by
    have hc := h.block c hc
    exact ⟨hc.1, by omega, hc.2.2⟩
  ordered := h.ordered
  covered n line hn hl ht hline := by
    by_cases hk : n < b.first - 1
    · exact h.covered n line hk hl ht hline
    · have hs := hb.opens.start_le (by omega) hl ht
      exact absurd (hblank line (mem_body.mpr ⟨n, hs, hn, hl⟩)) hline

/-- The lines of `b` are not all blank: a section cites it. -/
theorem Cited.snoc (h : Cited lines default (b.first - 1) blocks sections)
    (hb : IsBlock lines default b) (hf : b.first - 1 ≤ b.last)
    (hline : ∃ line ∈ b.body lines, ¬ Blank line) (hs : Cites lines b s) :
    Cited lines default b.last (blocks ++ [b]) (sections ++ [s]) where
  cites := List.rel_append h.cites (.cons hs .nil)
  block c hc := by
    cases List.mem_append.mp hc with
    | inl hc =>
      have hc := h.block c hc
      exact ⟨hc.1, by omega, hc.2.2⟩
    | inr hc =>
      cases List.mem_singleton.mp hc
      exact ⟨hb, Nat.le_refl _, hline⟩
  ordered := by
    rw [List.pairwise_append]
    refine ⟨h.ordered, List.pairwise_singleton _ b, ?_⟩
    intro c hc d hd
    cases List.mem_singleton.mp hd
    have h1 := (h.block c hc).2.1
    have h2 := hb.opens.first_bounds.1
    omega
  covered n line hn hl ht hline := by
    by_cases hk : n < b.first - 1
    · obtain ⟨c, hc, hn⟩ := h.covered n line hk hl ht hline
      exact ⟨c, List.mem_append_left [b] hc, hn⟩
    · have hs := hb.opens.start_le (by omega) hl ht
      exact ⟨b, List.mem_append_right blocks (List.mem_singleton.mpr rfl), hs, hn⟩

end Cited

/-- The parser after `k` lines: its variables are those of the block that is open, and the sections
cite the blocks before. -/
structure Parsed (lines : List Line) (default : String) (k start : Nat) (blocks : List Block)
    (p : Parser) : Prop where
  opens : Opens lines default start p.heading p.headingLine
  plain : Plain lines start k
  start_le : start ≤ k
  body : p.body = (lines.take k).drop start
  cited : Cited lines default (p.headingLine - 1) blocks p.sections

namespace Parser
variable {unicode : Unicode} {sourceName default : String} {p q : Parser} {lines : List Line}
  {k start : Nat} {blocks : List Block}

theorem flush_cases {endLine : Nat} (h : p.flush unicode sourceName endLine = .ok q) :
    (sectionContent p.body = "" ∧ q = p) ∨
      ∃ s, sectionContent p.body ≠ "" ∧ q = { p with sections := p.sections ++ [s] } ∧
        s.title = p.heading ∧ s.content = sectionContent p.body ∧
        s.sourceLocator = sectionLocator p.headingLine (max p.headingLine endLine) := by
  rw [flush] at h
  by_cases hb : sectionContent p.body = ""
  · rw [if_pos hb] at h
    cases h
    exact .inl ⟨hb, rfl⟩
  · rw [if_neg hb] at h
    obtain ⟨s, hs, hq⟩ := Result.bind_eq_ok.mp h
    cases hq
    have he := DocumentSection.eq_of_make hs
    exact .inr ⟨s, hb, rfl, he.2.1, he.2.2.2, he.2.2.1⟩

/-- A flush where the open block ends leaves the other variables and cites the block unless it is
blank. -/
theorem flush_cites (hp : Parsed lines default k start blocks p) (hk : Closes lines k)
    (h : p.flush unicode sourceName k = .ok q) :
    ∃ blocks', Cited lines default k blocks' q.sections := by
  have hb : IsBlock lines default ⟨p.heading, p.headingLine, start, k⟩ := ⟨hp.opens, hp.plain, hk⟩
  have hf := hp.opens.first_bounds
  have hsk := hp.start_le
  rcases flush_cases h with ⟨he, rfl⟩ | ⟨s, hne, rfl, ht, hc, hl⟩
  · rw [hp.body, content_eq_empty] at he
    exact ⟨blocks, hp.cited.skip hb (by simp only; omega) he⟩
  · rw [Ne, hp.body, content_eq_empty] at hne
    push Not at hne
    have hlast : max p.headingLine k = k := by
      obtain ⟨line, hm, -⟩ := hne
      obtain ⟨n, hn, hnk, -⟩ := (mem_body (b := ⟨p.heading, p.headingLine, start, k⟩)).mp hm
      simp only at hn hnk
      omega
    refine ⟨_, hp.cited.snoc hb (by simp only; omega) hne ⟨ht, ?_, ?_⟩⟩
    · rw [hc, hp.body]
      rfl
    · rw [hl, hlast]

theorem read_parsed {line : Line} (hp : Parsed lines default k start blocks p)
    (hl : lines[k]? = some line) (h : p.read unicode sourceName (k + 1) line = .ok q) :
    ∃ start' blocks', Parsed lines default (k + 1) start' blocks' q := by
  have hk : k < lines.length := (List.getElem?_eq_some_iff.mp hl).1
  rw [read] at h
  cases ht : headingTitle line with
  | some title =>
    rw [ht] at h
    obtain ⟨r, hr, hq⟩ := Result.bind_eq_ok.mp h
    cases hq
    have hc : Closes lines k := by
      refine ⟨by omega, ?_⟩
      intro line' hl'
      rw [← Option.some.inj (hl.symm.trans hl'), ht]
      exact Option.some_ne_none title
    obtain ⟨blocks', hb⟩ := flush_cites hp hc hr
    refine ⟨k + 1, blocks', .inr ⟨by omega, rfl, line, hl, ht⟩, ?_, Nat.le_refl _, ?_, hb⟩
    · intro n _ hn hlt
      omega
    · exact (List.drop_eq_nil_of_le (by rw [List.length_take]; omega)).symm
  | none =>
    rw [ht] at h
    cases h
    have hs := hp.start_le
    refine ⟨start, blocks, hp.opens, ?_, by omega, ?_, hp.cited⟩
    · intro n line' hn hlt hl'
      by_cases he : n = k
      · rw [he, hl] at hl'
        rw [← Option.some.inj hl', ht]
      · exact hp.plain n line' hn (by omega) hl'
    · rw [List.take_add_one, hl, hp.body,
        List.drop_append_of_le_length (by rw [List.length_take]; omega)]
      rfl

theorem readAll_parsed {rest : List Line} (hp : Parsed lines default k start blocks p)
    (hl : lines.drop k = rest) (hk : k ≤ lines.length)
    (h : p.readAll unicode sourceName (k + 1) rest = .ok q) :
    ∃ start' blocks', Parsed lines default lines.length start' blocks' q := by
  induction rest generalizing p k start blocks with
  | nil =>
    cases h
    have he : k = lines.length := Nat.le_antisymm hk (List.drop_eq_nil_iff.mp hl)
    exact ⟨start, blocks, he ▸ hp⟩
  | cons line rest ih =>
    obtain ⟨r, hr, hq⟩ := Result.bind_eq_ok.mp h
    have hline : lines[k]? = some line := by
      rw [← List.head?_drop, hl]
      rfl
    obtain ⟨start', blocks', hp'⟩ := read_parsed hp hline hr
    have hlt : k < lines.length := (List.getElem?_eq_some_iff.mp hline).1
    apply ih hp' ?_ hlt hq
    rw [← List.tail_drop, hl]
    rfl

end Parser

theorem lines_cited {unicode : Unicode} {sourceName : String} {lines : List Line}
    {sections : List DocumentSection} (h : parseLines unicode sourceName lines = .ok sections) :
    ∃ blocks, Cited lines (defaultTitle sourceName) lines.length blocks sections := by
  obtain ⟨p, hp, h⟩ := Result.bind_eq_ok.mp h
  obtain ⟨q, hq, h⟩ := Result.bind_eq_ok.mp h
  have hinit : Parsed lines (defaultTitle sourceName) 0 0 [] ⟨[], defaultTitle sourceName, 1, []⟩ :=
    ⟨.inl ⟨rfl, rfl, rfl⟩, fun n _ _ hn => absurd hn (Nat.not_lt_zero n), Nat.le_refl 0, rfl,
      Cited.start lines _⟩
  obtain ⟨start, blocks, hparsed⟩ := Parser.readAll_parsed hinit (List.drop_zero) (Nat.zero_le _) hp
  have hc : Closes lines lines.length := by
    refine ⟨Nat.le_refl _, ?_⟩
    intro line hl
    rw [List.getElem?_eq_none (Nat.le_refl _)] at hl
    cases hl
  obtain ⟨blocks', hcited⟩ := Parser.flush_cites hparsed hc hq
  by_cases hn : q.sections = []
  · rw [if_pos hn] at h
    cases h
  · rw [if_neg hn] at h
    cases h
    exact ⟨blocks', hcited⟩

section Consequences
variable {lines : List Line} {default : String} {blocks : List Block}
  {sections : List DocumentSection} {n : Nat} {line : Line}

/-- The blocks that are cited are all the blocks that are not blank. -/
theorem Cited.blocks_iff (h : Cited lines default lines.length blocks sections) (b : Block) :
    b ∈ blocks ↔ IsBlock lines default b ∧ ∃ line ∈ b.body lines, ¬ Blank line := by
  constructor
  · intro hb
    exact ⟨(h.block b hb).1, (h.block b hb).2.2⟩
  · intro ⟨hb, line, hm, hline⟩
    obtain ⟨n, hs, hl, hn⟩ := mem_body.mp hm
    have hlen : n < lines.length := (List.getElem?_eq_some_iff.mp hn).1
    obtain ⟨c, hc, hcs, hcl⟩ := h.covered n line hlen hn (hb.plain n line hs hl hn) hline
    rw [hb.unique (h.block c hc).1 hs hl hcs hcl]
    exact hc

theorem Cited.range (h : Cited lines default lines.length blocks sections) {b : Block}
    (hb : b ∈ blocks) : b.first ≤ b.last := by
  obtain ⟨hb, -, line, hm, -⟩ := h.block b hb
  obtain ⟨n, hs, hl, -⟩ := mem_body.mp hm
  have hf := hb.opens.first_bounds
  omega

/-- Two cited ranges that hold one line are the same. -/
theorem Cited.index_unique (h : Cited lines default lines.length blocks sections) {i j : Nat}
    {b c : Block} (hi : blocks[i]? = some b) (hj : blocks[j]? = some c) (hb : b.first ≤ n ∧ n ≤ b.last)
    (hc : c.first ≤ n ∧ n ≤ c.last) : i = j := by
  obtain ⟨hil, hib⟩ := List.getElem?_eq_some_iff.mp hi
  obtain ⟨hjl, hjc⟩ := List.getElem?_eq_some_iff.mp hj
  have ho := List.pairwise_iff_getElem.mp h.ordered
  rcases Nat.lt_trichotomy i j with hlt | he | hlt
  · have := ho i j hil hjl hlt
    rw [hib, hjc] at this
    omega
  · exact he
  · have := ho j i hjl hil hlt
    rw [hib, hjc] at this
    omega

/-- A line that is neither blank nor a heading stands, without the white space around it, in the
section whose range holds it. -/
theorem Cited.line_shown (h : Cited lines default lines.length blocks sections)
    (hl : lines[n]? = some line) (ht : headingTitle line = none) (hn : ¬ Blank line) :
    ∃ (i : Nat) (b : Block) (s : DocumentSection), blocks[i]? = some b ∧ sections[i]? = some s ∧ line ∈ b.body lines ∧
      (b.first ≤ n + 1 ∧ n + 1 ≤ b.last) ∧
      (strip (String.ofList line)).toList <:+: s.content.toList := by
  have hlen : n < lines.length := (List.getElem?_eq_some_iff.mp hl).1
  obtain ⟨b, hb, hs, hlast⟩ := h.covered n line hlen hl ht hn
  obtain ⟨i, hi, hib⟩ := List.mem_iff_getElem.mp hb
  have hlen' : i < sections.length := h.cites.length_eq ▸ hi
  have hc : Cites lines blocks[i] sections[i] := List.forall₂_iff_get.mp h.cites |>.2 i hi hlen'
  have hm : line ∈ b.body lines := mem_body.mpr ⟨n, hs, hlast, hl⟩
  have hf := (h.block b hb).1.opens.first_bounds
  refine ⟨i, b, sections[i], ?_, List.getElem?_eq_getElem hlen', hm, ⟨by omega, hlast⟩, ?_⟩
  · rw [List.getElem?_eq_getElem hi, hib]
  · rw [hc.content, hib]
    exact strip_line_infix hm hn

end Consequences

/-- The sections of a document cite its blocks that are not blank, in their order and with disjoint
ranges, and each line with text is in one of them. -/
theorem markdown_cites_blocks {unicode : Unicode} {sourceName : String} {payload : ByteArray}
    {sections : List DocumentSection}
    (h : parseMarkdown unicode sourceName payload = .ok sections) :
    ∃ text lines blocks, String.fromUTF8? payload = some text ∧ lines = splitLines [] text.toList ∧
      (∀ b, b ∈ blocks ↔
        IsBlock lines (defaultTitle sourceName) b ∧ ∃ line ∈ b.body lines, ¬ Blank line) ∧
      List.Forall₂ (Cites lines) blocks sections ∧
      (blocks.Pairwise fun b c => b.last < c.first) ∧ (∀ b ∈ blocks, b.first ≤ b.last) ∧
      ∀ (n : Nat) line, lines[n]? = some line → headingTitle line = none → ¬ Blank line →
        ∃! i : Nat, ∃ b s, blocks[i]? = some b ∧ sections[i]? = some s ∧ line ∈ b.body lines ∧
          (b.first ≤ n + 1 ∧ n + 1 ≤ b.last) ∧
          (strip (String.ofList line)).toList <:+: s.content.toList := by
  rw [parseMarkdown] at h
  cases ht : String.fromUTF8? payload with
  | none =>
    rw [ht] at h
    cases h
  | some text =>
    rw [ht] at h
    obtain ⟨blocks, hc⟩ := lines_cited h
    refine ⟨text, _, blocks, rfl, rfl, hc.blocks_iff, hc.cites, hc.ordered, fun b => hc.range, ?_⟩
    intro n line hl hh hn
    obtain ⟨i, b, s, hi, hrest⟩ := hc.line_shown hl hh hn
    refine ⟨i, ⟨b, s, hi, hrest⟩, ?_⟩
    intro j ⟨c, t, hj, _, _, hr, _⟩
    exact hc.index_unique hj hi hr hrest.2.2.1

/-- Unicode as far as runs on ASCII texts need it. -/
def asciiUnicode : Unicode where
  lower := lower
  word c := c.isAlphanum || c == '_'

theorem netLocator_bounded : Bounded 120 "lines=1-3" := by decide

/-- The section of the document "# Net\n\nof VAT". -/
def netSection : DocumentSection where
  sectionKey := "m.md#net"
  title := "Net"
  sourceLocator := "lines=1-3"
  content := "of VAT"
  sectionKey_bounded := by decide
  title_bounded := by decide
  sourceLocator_bounded := netLocator_bounded
  content_bounded := by decide

theorem net_cites_blocks :
    ∃ text lines blocks, String.fromUTF8? "# Net\n\nof VAT".toByteArray = some text ∧
      lines = splitLines [] text.toList ∧
      (∀ b, b ∈ blocks ↔ IsBlock lines (defaultTitle "m.md") b ∧ ∃ line ∈ b.body lines, ¬ Blank line) ∧
      List.Forall₂ (Cites lines) blocks [netSection] ∧
      (blocks.Pairwise fun b c => b.last < c.first) ∧ (∀ b ∈ blocks, b.first ≤ b.last) ∧
      ∀ (n : Nat) line, lines[n]? = some line → headingTitle line = none → ¬ Blank line →
        ∃! i : Nat, ∃ b s, blocks[i]? = some b ∧ [netSection][i]? = some s ∧ line ∈ b.body lines ∧
          (b.first ≤ n + 1 ∧ n + 1 ≤ b.last) ∧
          (strip (String.ofList line)).toList <:+: s.content.toList :=
  @markdown_cites_blocks asciiUnicode "m.md" _ [netSection] (by decide)

/-- The section of the document "a" under the name "/", whose stem is empty. -/
def rootSection : DocumentSection where
  sectionKey := "/#document"
  title := "Document"
  sourceLocator := "lines=1-1"
  content := "a"
  sectionKey_bounded := by decide
  title_bounded := by decide
  sourceLocator_bounded := by decide
  content_bounded := by decide

/-- The section of the document "  a" under the name "m.md". -/
def indentedSection : DocumentSection := { rootSection with
  sectionKey := "m.md#m"
  title := "m"
  sectionKey_bounded := by decide
  title_bounded := by decide }

/-- The title of a block before the first heading is not always the stem of the file, and the white space at
the ends of a block is not in the content. -/
theorem stem_not_title :
    (parseMarkdown asciiUnicode "/" "a".toByteArray = .ok [rootSection] ∧
      ¬ ∃ blocks, (∀ b ∈ blocks, IsBlock (splitLines [] "a".toList) (stem "/") b) ∧
        List.Forall₂ (Cites (splitLines [] "a".toList)) blocks [rootSection]) ∧
    parseMarkdown asciiUnicode "m.md" "  a".toByteArray = .ok [indentedSection] ∧
      splitLines [] "  a".toList = ["  a".toList] ∧ ¬ "  a".toList <:+: indentedSection.content.toList := by
  refine ⟨⟨by decide, ?_⟩, by decide, by decide, by decide⟩
  intro ⟨blocks, hb, hc⟩
  cases hc with
  | @cons b _ _ _ hc _ =>
    have htitle : b.title = "Document" := hc.title.symm
    rcases (hb b List.mem_cons_self).opens with ⟨-, ht, -⟩ | ⟨h1, -, line, hl, hh⟩
    · rw [htitle] at ht
      exact absurd ht (by decide)
    · have hline : line = ['a'] := by
        have hm := List.mem_of_getElem? hl
        exact List.mem_singleton.mp hm
      rw [hline] at hh
      exact absurd hh (by rw [htitle]; decide)

end DataCopilot.Retrieval
