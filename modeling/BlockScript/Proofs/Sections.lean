import BlockScript.Proofs.Matching
import BlockScript.Proofs.Outcomes
import BlockScript.Window.Audit

/-!
# Sections of a file of records

A file of records is a preamble and one section for each head (`sections`, `eq_append_sections`). The audit reads a
record from every section (`numbered_eq`). The catalog reads a record from everything between heads that has a line
(`chunksFrom_eq`): from the preamble too, and none from a section without lines. So the two read the same records when
there is no preamble and no section is empty, and else the records of the catalog are shifted (`catalog_places`).
-/

open List
namespace BlockScript.Window
open Text (startsWith)
open Record (chunksFrom ofLines)

/-! ### Sections -/

def isHead (line : Text) : Bool := startsWith line "# record"

def isCount (line : Text) : Bool := startsWith line "records="

/-- The head of a record and the lines up to the next head. -/
structure Section where
  head : Text
  body : List Text

/-- The lines before the first head. -/
def start (lines : List Text) : List Text := lines.takeWhile (!isHead ·)

/-- The sections of a file. -/
def sections : List Text → List Section
  | [] => []
  | line :: rest => if isHead line then ⟨line, start rest⟩ :: sections rest else sections rest

/-- The lines of a section that may say something about its record. -/
def Section.lines (s : Section) : List Text := s.body.filter (!isCount ·)

def preamble (lines : List Text) : List Text := (start lines).filter (!isCount ·)

section
variable {line : Text} {rest : List Text}

lemma start_of_head (h : isHead line) : start (line :: rest) = [] := by simp [start, h]

lemma start_of_not_head (h : isHead line = false) : start (line :: rest) = line :: start rest := by simp [start, h]

lemma sections_of_head (h : isHead line) : sections (line :: rest) = ⟨line, start rest⟩ :: sections rest := by
  rw [sections, if_pos h]

lemma sections_not_head (h : isHead line = false) : sections (line :: rest) = sections rest := by
  rw [sections, if_neg (by rw [h]; exact Bool.false_ne_true)]

end

lemma eq_append_sections (lines : List Text) :
    lines = start lines ++ (sections lines).flatMap fun s => s.head :: s.body := by
  induction lines with
  | nil => rfl
  | cons line rest ih =>
    cases h : isHead line with
    | true =>
      rw [start_of_head h, sections_of_head h, flatMap_cons, nil_append, cons_append, ← ih]
    | false => rw [start_of_not_head h, sections_not_head h, cons_append, ← ih]

/-! ### The catalog -/

lemma chunksFrom_eq (pending lines : List Text) : chunksFrom pending lines
    = ((pending.reverse ++ preamble lines) :: (sections lines).map Section.lines).filter (!·.isEmpty) := by
  induction lines generalizing pending with
  | nil =>
    rw [chunksFrom]
    cases pending with
    | nil => rfl
    | cons line pending => simp [preamble, start, sections]
  | cons line rest ih =>
    rw [chunksFrom, ← isHead, ← isCount]
    cases h : isHead line with
    | true =>
      rw [preamble, start_of_head h, sections_of_head h, ih]
      cases pending with
      | nil => rfl
      | cons => simp [preamble, Section.lines]
    | false =>
      rw [if_neg Bool.false_ne_true, sections_not_head h]
      cases hcnt : isCount line with
      | true =>
        have hpre : preamble (line :: rest) = preamble rest := by simp [preamble, start_of_not_head h, hcnt]
        rw [if_pos rfl, ih, hpre]
      | false =>
        have hpre : preamble (line :: rest) = line :: preamble rest := by simp [preamble, start_of_not_head h, hcnt]
        rw [if_neg Bool.false_ne_true, ih, hpre, reverse_cons, append_assoc, singleton_append]

variable {lines : List Text} {line : Text} {s : Section} {aliases : Option Json} {bytes : Bytes} {entries : List Json}
  {table : Table (Table Text)} {α β γ : Type} {xs : List α} {R : α → β → Prop} {ys : List β}

lemma enter_of_count (h : isCount line) (r : Record) : r.enter line = .ok r := by
  obtain ⟨t, rfl⟩ := isPrefixOf_iff_prefix.mp h
  rfl

lemma foldlM_enter_filter (lines : List Text) (r : Record) :
    (lines.filter (!isCount ·)).foldlM Record.enter r = lines.foldlM Record.enter r := by
  induction lines generalizing r with
  | nil => rfl
  | cons line rest ih =>
    cases h : isCount line with
    | true =>
      rw [filter_cons_of_neg (by simp [h]), foldlM_cons, enter_of_count h, ih]
      rfl
    | false =>
      rw [filter_cons_of_pos (by simp [h]), foldlM_cons]
      exact congrArg _ (funext ih)

lemma ofLines_lines (s : Section) : ofLines s.lines = ofLines s.body := foldlM_enter_filter s.body {}

/-! ### The audit -/

def Section.read (s : Section) : Except Fault Numbered := do
  return ⟨← headNumber s.head, ← ofLines s.body⟩

def HeadsNumbered (lines : List Text) : Prop :=
  ∀ line ∈ lines, isHead line → startsWith line "# record " ∧ (headNumber line).isOk

instance (lines : List Text) : Decidable (HeadsNumbered lines) :=
  inferInstanceAs (Decidable (∀ line ∈ lines, isHead line → startsWith line "# record " ∧ (headNumber line).isOk))

lemma HeadsNumbered.tail {rest : List Text} (h : HeadsNumbered (line :: rest)) : HeadsNumbered rest :=
  fun l hl => h l (mem_cons_of_mem line hl)

lemma isHead_of_startsWith (h : startsWith line "# record ") : isHead line := by
  rw [startsWith, isPrefixOf_iff_prefix] at h
  rw [isHead, startsWith, isPrefixOf_iff_prefix]
  exact List.IsPrefix.trans (by decide) h

lemma not_startsWith (h : isHead line = false) : ¬ startsWith line "# record " := fun hln =>
  Bool.false_ne_true (h.symm.trans (isHead_of_startsWith hln))

lemma numberedFrom_some (h : HeadsNumbered lines) (c : Numbered) : numberedFrom (some c) lines = do
      let r ← (start lines).foldlM Record.enter c.record
      return ⟨c.number, r⟩ :: (← (sections lines).mapM Section.read) := by
  induction lines generalizing c with
  | nil => rfl
  | cons line rest ih =>
    rw [numberedFrom]
    cases hhead : isHead line with
    | true =>
      rw [if_pos (h line (by simp) hhead).1, start_of_head hhead, sections_of_head hhead, mapM_cons]
      simp only [ih h.tail, Section.read, bind_assoc]
      rfl
    | false =>
      rw [if_neg (not_startsWith hhead), start_of_not_head hhead, sections_not_head hhead, foldlM_cons]
      simp [ih h.tail]

lemma numbered_eq (h : HeadsNumbered lines) : numberedFrom none lines = (sections lines).mapM Section.read := by
  induction lines with
  | nil => rfl
  | cons line rest ih =>
    rw [numberedFrom]
    cases hhead : isHead line with
    | true =>
      rw [if_pos (h line (by simp) hhead).1, sections_of_head hhead, mapM_cons]
      simp only [numberedFrom_some h.tail, Section.read, bind_assoc]
      rfl
    | false =>
      rw [if_neg (not_startsWith hhead), sections_not_head hhead]
      exact ih h.tail

/-! ### Places in the catalog -/

/-- A file without a preamble in which every section has lines. -/
def IsPlain (lines : List Text) : Prop := preamble lines = [] ∧ ∀ s ∈ sections lines, s.lines ≠ []

instance (lines : List Text) : Decidable (IsPlain lines) :=
  inferInstanceAs (Decidable (preamble lines = [] ∧ ∀ s ∈ sections lines, s.lines ≠ []))

lemma chunksFrom_of_plain (h : IsPlain lines) : chunksFrom [] lines = (sections lines).map Section.lines := by
  rw [chunksFrom_eq, h.1]
  exact filter_eq_self.mpr (forall_mem_map.mpr fun s hs => by simpa using h.2 s hs)

/-- The catalog reads from the sections, and from nothing else, only in a plain file. -/
lemma chunksFrom_eq_iff_isPlain (lines : List Text) :
    chunksFrom [] lines = (sections lines).map Section.lines ↔ IsPlain lines := by
  refine ⟨fun h => ?_, chunksFrom_of_plain⟩
  have hls : ∀ s ∈ sections lines, s.lines ≠ [] := by
    intro s hs
    have hmem := mem_map_of_mem (f := Section.lines) hs
    rw [← h, chunksFrom_eq, mem_filter] at hmem
    simpa using hmem.2
  refine ⟨?_, hls⟩
  by_contra hpre
  have hlen := congrArg List.length h
  rw [chunksFrom_eq, reverse_nil, filter_cons_of_pos (by simpa using hpre), filter_eq_self.mpr] at hlen
  · exact Nat.succ_ne_self _ hlen
  · exact forall_mem_map.mpr fun s hs => by simpa using hls s hs

lemma isHead_of_mem_sections (hs : s ∈ sections lines) : s.head ∈ lines ∧ isHead s.head := by
  induction lines with
  | nil => contradiction
  | cons line rest ih =>
    cases hhead : isHead line with
    | true =>
      rw [sections_of_head hhead] at hs
      rcases mem_cons.mp hs with rfl | hs
      · exact ⟨mem_cons_self, hhead⟩
      · exact ⟨mem_cons_of_mem line (ih hs).1, (ih hs).2⟩
    | false =>
      rw [sections_not_head hhead] at hs
      exact ⟨mem_cons_of_mem line (ih hs).1, (ih hs).2⟩

lemma map_read (hheads : HeadsNumbered lines) (hs : s ∈ sections lines) :
    s.read.map Numbered.record = ofLines s.lines := by
  obtain ⟨hmem, hhead⟩ := isHead_of_mem_sections hs
  have hnum := (hheads s.head hmem hhead).2
  rw [ofLines_lines, Section.read]
  cases hn : headNumber s.head with
  | error e =>
    rw [hn] at hnum
    exact absurd hnum Bool.false_ne_true
  | ok n =>
    cases ofLines s.body with
    | error e => rfl
    | ok r => rfl

lemma mapM_eq_map_mapM {f : α → Except Fault β} {g : α → Except Fault γ} {k : β → γ}
    (h : ∀ x ∈ xs, g x = (f x).map k) : xs.mapM g = (xs.mapM f).map (List.map k) := by
  induction xs with
  | nil => rfl
  | cons x xs ih =>
    rw [mapM_cons, mapM_cons, h x (by simp), ih fun y hy => h y (by simp [hy])]
    cases f x with
    | error e => rfl
    | ok y =>
      cases xs.mapM f with
      | error e => rfl
      | ok ys => rfl

lemma all_eq_numbered (hheads : HeadsNumbered lines) (hpl : IsPlain lines) :
    Record.all lines = (numberedFrom none lines).map (List.map Numbered.record) := by
  rw [Record.all, chunksFrom_of_plain hpl, numbered_eq hheads, mapM_map]
  exact mapM_eq_map_mapM fun s hs => (map_read hheads hs).symm

/-- The place in the catalog behind the preamble and some sections: one for each that has lines. -/
def place (lines : List Text) (before : List Section) : Nat :=
  (preamble lines :: before.map Section.lines).countP (!·.isEmpty)

lemma place_of_plain (h : IsPlain lines) {before after : List Section}
    (hspl : sections lines = before ++ after) : place lines before = before.length := by
  rw [place, h.1, countP_cons_of_neg (by simp), countP_map]
  refine countP_eq_length.mpr fun s hs => ?_
  have hls := h.2 s (by rw [hspl]; exact mem_append_left after hs)
  simpa using hls

lemma getElem?_of_forall₂ {zs : List α} {x : α}
    (h : Forall₂ R (xs ++ x :: zs) ys) : ∃ y, R x y ∧ ys[xs.length]? = some y := by
  induction xs generalizing ys with
  | nil =>
    cases h with
    | cons hy _ => exact ⟨_, hy, rfl⟩
  | cons x' xs ih =>
    cases h with
    | cons _ h =>
      obtain ⟨y, hy, hget⟩ := ih h
      exact ⟨y, hy, hget⟩

lemma forall₂_comp {S : β → γ → Prop} {zs : List γ}
    (h : Forall₂ R xs ys) (h' : Forall₂ S ys zs) : Forall₂ (fun x z => ∃ y, R x y ∧ S y z) xs zs := by
  induction h generalizing zs with
  | nil =>
    cases h'
    exact .nil
  | cons hxy _ ih =>
    cases h' with
    | cons hyz h' => exact .cons ⟨_, hxy, hyz⟩ (ih h')

lemma forall₂_of_catalog {reading : Reading} (h : catalog reading aliases bytes = .ok (.arr entries, table)) :
    ∃ names, signAliases aliases = .ok names ∧ Forall₂ (fun chunk e => ∃ r, ofLines chunk = .ok r
      ∧ r.entry "id" .near names = .ok e) (chunksFrom [] (reading.fileLines bytes)) entries := by
  obtain ⟨names, hnms, h⟩ := bind_eq_ok.mp h
  obtain ⟨rs, hrs, h⟩ := bind_eq_ok.mp h
  obtain ⟨es, hes, h⟩ := bind_eq_ok.mp h
  obtain rfl : es = entries := Json.arr.inj (Prod.mk.inj (Except.ok.inj h)).1
  refine ⟨names, hnms, ?_⟩
  rw [Record.all, mapM_ok_iff] at hrs
  rw [mapM_ok_iff] at hes
  exact forall₂_comp hrs hes

/-- The catalog has an entry for the preamble and for each section, where they have lines; the entry of a section stands
behind those of what precedes it. -/
lemma catalog_getElem?
    (hheads : HeadsNumbered (plainLines bytes)) (h : catalog .near aliases bytes = .ok (.arr entries, table))
    {before after : List Section} (hspl : sections (plainLines bytes) = before ++ s :: after) (hs : s.lines ≠ []) :
    ∃ n names e, s.read = .ok n ∧ signAliases aliases = .ok names ∧ n.record.entry "id" .near names = .ok e
      ∧ entries[place (plainLines bytes) before]? = some e := by
  obtain ⟨names, hnms, hents⟩ := forall₂_of_catalog h
  have hkept : (s.lines :: after.map Section.lines).filter (!·.isEmpty)
      = s.lines :: (after.map Section.lines).filter (!·.isEmpty) := filter_cons_of_pos (by simpa using hs)
  rw [Reading.fileLines, chunksFrom_eq, hspl, map_append, map_cons, ← cons_append, filter_append, hkept] at hents
  obtain ⟨e, ⟨r, hr, he⟩, hget⟩ := getElem?_of_forall₂ hents
  rw [← countP_eq_length_filter] at hget
  have hmap := map_read hheads (s := s) (by simp [hspl])
  rw [hr] at hmap
  cases hrd : s.read with
  | error fault =>
    rw [hrd] at hmap
    contradiction
  | ok n =>
    rw [hrd] at hmap
    obtain rfl : n.record = r := Except.ok.inj hmap
    exact ⟨n, names, e, rfl, hnms, he, hget⟩

/-- Behind every head the audit reads a record. The catalog reads the same records, in the same order, iff
nothing stands before the first head and no section is empty; else it reads a record from the preamble and none from
empty sections, so that the place of a record in the catalog depends on what precedes it. -/
theorem catalog_reads_numbered (bytes : Bytes) (hheads : HeadsNumbered (plainLines bytes)) :
    plainLines bytes = start (plainLines bytes) ++ (sections (plainLines bytes)).flatMap (fun s => s.head :: s.body)
    ∧ numbered bytes = (sections (plainLines bytes)).mapM Section.read
    ∧ (chunksFrom [] (plainLines bytes) = (sections (plainLines bytes)).map Section.lines
        ↔ IsPlain (plainLines bytes))
    ∧ (IsPlain (plainLines bytes) → Record.all (plainLines bytes) = (numbered bytes).map (List.map Numbered.record))
    ∧ ∀ aliases entries table, catalog .near aliases bytes = .ok (.arr entries, table) →
        entries.length = place (plainLines bytes) (sections (plainLines bytes))
        ∧ ∀ before s after, sections (plainLines bytes) = before ++ s :: after → s.lines ≠ [] →
          (IsPlain (plainLines bytes) → place (plainLines bytes) before = before.length)
          ∧ ∃ n names e, s.read = .ok n ∧ signAliases aliases = .ok names ∧ n.record.entry "id" .near names = .ok e
            ∧ entries[place (plainLines bytes) before]? = some e := by
  refine ⟨eq_append_sections _, numbered_eq hheads, chunksFrom_eq_iff_isPlain _, all_eq_numbered hheads, ?_⟩
  intro aliases entries table h
  constructor
  · obtain ⟨names, -, hents⟩ := forall₂_of_catalog h
    rw [← hents.length_eq, chunksFrom_eq, ← countP_eq_length_filter]
    rfl
  · intro before s after hspl hs
    exact ⟨fun hpl => place_of_plain hpl hspl, catalog_getElem? hheads h hspl hs⟩

def bytesOf (lines : List String) : Bytes :=
  (Text.joinLines (lines.map String.toList)).map fun c => UInt8.ofNat c.toNat

def twoRecords : Bytes := bytesOf ["records=2", "# record 1", "sign1=a", "# record 2", "sign1=b"]

/-- The line that counts the records is no preamble. -/
theorem catalog_reads_numbered_twoRecords : HeadsNumbered (plainLines twoRecords) ∧ IsPlain (plainLines twoRecords)
    ∧ Record.all (plainLines twoRecords) = (numbered twoRecords).map (List.map Numbered.record) := by
  have hheads : HeadsNumbered (plainLines twoRecords) := by decide
  have hpl : IsPlain (plainLines twoRecords) := by decide
  exact ⟨hheads, hpl, (catalog_reads_numbered twoRecords hheads).2.2.2.1 hpl⟩

/-- A blank line before the first head gives the catalog a record of its own. -/
theorem catalog_reads_preamble :
    ((catalog .near none (bytesOf ["", "# record 1", "sign1=a"])).map fun c => c.1.items?.map List.length).toOption
      = some (some 2) ∧ ((numbered (bytesOf ["", "# record 1", "sign1=a"])).map List.length).toOption = some 1 := by
  decide

end BlockScript.Window
