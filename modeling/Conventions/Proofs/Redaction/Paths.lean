import Conventions.Proofs.Redaction.Public
import Conventions.Proofs.Redaction.Secrets

/-!
# Proofs/Redaction/Paths — which paths are left in a public answer

No directory that betrays a path is left in scrubbed text, in any case (`not_spells_scrub`). A drive
prefix is: the pattern for paths asks for two backslashes behind the colon, and the text of a path has one.
What is scrubbed has no drive prefix if every one of the text is followed by a second backslash
(`not_drive_scrub`). This is all that protects it: a drive prefix without a second backslash stays
(`ShowsDrive.scrub`), for matches of paths do not begin in it and an address ends with a single letter
only behind a colon.
-/

namespace Conventions
namespace Redaction

open Text (Pattern Place)
open Text.Pattern

variable {p q : Place} {before : Option Char} {c : Char} {front rest read : List Char}

/-- **A drive prefix stands behind some characters of a text**: an ASCII letter, a colon and a backslash,
and no word character before the letter. What follows is `rest`. -/
structure Drive (p : Place) (front rest : List Char) : Prop where
  spelled : ∃ c, c.isAlpha = true ∧ p.rest = front ++ c :: ':' :: '\\' :: rest
  apart : ∀ d ∈ front.getLast?.or p.before, Text.isWord d = false

/-- The directories that are the beginnings of raw paths. -/
def rawDirectories : List String := ["/home/", "/root/", "/users/", "/tmp/", "/var/"]

/-! ## Directories -/

/-- **No raw directory is left**, in any case. -/
theorem not_spells_scrub {s word : String} {part : List Char} (hword : word ∈ rawDirectories)
    (hpart : part <:+: (scrub s).toList) : ¬ Spells word part := by
  intro hspells
  obtain ⟨front, rest, hwhole⟩ := hpart
  rw [List.append_assoc] at hwhole
  have hnone := foundFrom_eq_false_iff.1 (foundIn_rawPath_scrub s) front (part ++ rest) hwhole.symm
  have hread : Place.Passes ⟨front.getLast?.or none, part ++ rest⟩ part
      ⟨part.getLast?.or (front.getLast?.or none), rest⟩ := ⟨rfl, rfl⟩
  have hmatch := mem_ends_anyCase hspells hread
  have hpattern : anyCase word ∈ [all [.class isAnyLetter, char ':', char '\\', char '\\'],
      anyCase "/home/", anyCase "/root/", anyCase "/users/", anyCase "/tmp/", anyCase "/var/",
      Text.Pattern.word "./", Text.Pattern.word ".."] := by
    have hwords : anyCase word ∈ rawDirectories.map anyCase := List.mem_map_of_mem hword
    exact List.mem_cons_of_mem _
      (List.mem_append_left [Text.Pattern.word "./", Text.Pattern.word ".."] hwords)
  have hpath := mem_ends_first.2 ⟨_, hpattern, hmatch⟩
  rw [← rawPath, hnone] at hpath
  cases hpath

/-! ## Drive prefixes -/

/-- The pattern of a drive prefix. -/
def drivePrefix : Pattern := all [.wordEdge, .class Char.isAlpha, char ':', char '\\']

theorem isWord_of_isAlpha (h : c.isAlpha = true) : Text.isWord c = true :=
  Text.isWord_of_isAlphanum (Bool.or_eq_true_iff.2 (.inl h))

theorem mem_ends_char : q ∈ (char c).ends p ↔ p.Passes [c] q := by
  rw [char, mem_ends_class]
  constructor
  · rintro ⟨d, hd, hread⟩
    rwa [eq_of_beq hd] at hread
  · exact fun hread => ⟨c, beq_self_eq_true c, hread⟩

/-- A place between a letter behind it and something that is no word character before it is a word edge. -/
theorem atWordEdge_iff (hc : c.isAlpha = true) (hnext : p.rest.head? = some c) :
    atWordEdge p = true ↔ ∀ d ∈ p.before, Text.isWord d = false := by
  rw [atWordEdge, hnext, Option.map_some, Option.getD_some, isWord_of_isAlpha hc]
  cases p.before <;> simp

theorem mem_ends_drivePrefix : q ∈ drivePrefix.ends p ↔
    ∃ c, c.isAlpha = true ∧ (∀ d ∈ p.before, Text.isWord d = false) ∧ p.Passes [c, ':', '\\'] q := by
  constructor
  · intro h
    obtain ⟨m, hm, htail⟩ := mem_ends_all.1 h
    obtain ⟨m₁, hm₁, htail⟩ := mem_ends_all.1 htail
    obtain ⟨m₂, hm₂, hslash⟩ := mem_ends_all.1 htail
    obtain ⟨rfl, hedge⟩ := mem_ends_wordEdge_iff.1 hm
    obtain ⟨c, hc, hletter⟩ := mem_ends_class.1 hm₁
    have hread := (hletter.trans (mem_ends_char.1 hm₂)).trans (mem_ends_char.1 hslash)
    refine ⟨c, hc, (atWordEdge_iff hc ?_).1 hedge, hread⟩
    rw [hread.rest]
    rfl
  · rintro ⟨c, hc, hbefore, hread⟩
    obtain ⟨m₁, hletter, hrest⟩ := hread.uncons
    obtain ⟨m₂, hcolon, hslash⟩ := hrest.uncons
    have hedge : atWordEdge p = true := by
      refine (atWordEdge_iff hc ?_).2 hbefore
      rw [hread.rest]
      rfl
    exact mem_ends_all.2 ⟨p, mem_ends_wordEdge_iff.2 ⟨rfl, hedge⟩, mem_ends_all.2 ⟨m₁,
      mem_ends_class.2 ⟨c, hc, hletter⟩, mem_ends_all.2 ⟨m₂, mem_ends_char.2 hcolon,
        mem_ends_char.2 hslash⟩⟩⟩

/-- **No drive prefix stands in a text** if the pattern is not found in it. -/
theorem foundFrom_drivePrefix_iff :
    drivePrefix.foundFrom p.before p.rest = false ↔ ∀ front rest, ¬ Drive p front rest := by
  rw [foundFrom_eq_false_iff]
  constructor
  · rintro h front rest ⟨⟨c, hc, hwhole⟩, hapart⟩
    have hmatch := mem_ends_drivePrefix (p := ⟨front.getLast?.or p.before, c :: ':' :: '\\' :: rest⟩)
      (q := ⟨some '\\', rest⟩) |>.2 ⟨c, hc, hapart, rfl, rfl⟩
    rw [h front _ hwhole] at hmatch
    cases hmatch
  · intro h front back hwhole
    refine List.eq_nil_iff_forall_not_mem.2 fun q hq => ?_
    obtain ⟨c, hc, hapart, hread⟩ := mem_ends_drivePrefix.1 hq
    exact h front q.rest ⟨⟨c, hc, hwhole.trans (congrArg (front ++ ·) hread.rest)⟩, hapart⟩

theorem leavesPlaceholder_drivePrefix : LeavesPlaceholder drivePrefix where
  consumes := by decide
  opening := by decide
  closing := by decide
  absent := by decide +kernel

theorem eq_slash_of_sameLetter (h : sameLetter '/' c = true) : c = '/' := by
  have hlower : c.toLower = '/' := by simpa [sameLetter] using h
  unfold Char.toLower at hlower
  split at hlower
  case isTrue hupper =>
    -- the small letter would be beyond the slash
    have hval : (c.val + 32).toNat = 47 := congrArg (fun d => d.val.toNat) hlower
    have hfirst : 65 ≤ c.val.toNat := hupper.1
    have hlast : c.val.toNat ≤ 90 := hupper.2
    rw [UInt32.toNat_add] at hval
    have hsum : (UInt32.toNat 32) = 32 := rfl
    omega
  case isFalse => exact hlower

/-- The beginning of a path ends with no word character. -/
theorem isWord_of_finishes_rawPath (h : rawPath.finishes c = true) : Text.isWord c = false := by
  have hlast : c = '\\' ∨ sameLetter '/' c = true ∨ c = '/' ∨ c = '.' := by
    simpa [rawPath, first, all, anyCase, Text.Pattern.word, finishes, consumes, char] using h
  obtain rfl | hslash | rfl | rfl := hlast
  · decide
  · rw [eq_slash_of_sameLetter hslash]
    decide
  · decide
  · decide

/-! ## Where every drive prefix has a second backslash -/

/-- A drive prefix with a second backslash is the beginning of a path. -/
theorem rawPath_ends_ne_nil (hc : c.isAlpha = true) (hread : p.Passes [c, ':', '\\'] q)
    (hnext : q.rest.head? = some '\\') : rawPath.ends p ≠ [] := by
  obtain ⟨rest, hrest⟩ := List.head?_eq_some_iff.1 hnext
  have hlonger : p.Passes [c, ':', '\\', '\\'] ⟨some '\\', rest⟩ := by
    refine ⟨?_, rfl⟩
    rw [hread.rest, hrest]
    rfl
  have hclasses : List.Forall₂ (fun (holds : Char → Bool) c => holds c = true)
      [isAnyLetter, (· == ':'), (· == '\\'), (· == '\\')] [c, ':', '\\', '\\'] := by
    simp [isAnyLetter, hc]
  exact List.ne_nil_of_mem <|
    mem_ends_first.2 ⟨_, List.mem_cons_self, mem_ends_all_class hclasses hlonger⟩

/-- A drive prefix of a masked text is spelled in the text, whatever stands before it there. -/
theorem exists_drive_of_masked {a : Pattern} (ha : a.consumes = true)
    (h : q ∈ drivePrefix.ends ⟨before, masked a p⟩) :
    ∃ c q, c.isAlpha = true ∧ (∀ d ∈ before, Text.isWord d = false) ∧ p.Passes [c, ':', '\\'] q := by
  obtain ⟨read, q, hread', hread, -⟩ :=
    exists_passes_of_mem_ends_masked ha leavesPlaceholder_drivePrefix.opening h
  obtain ⟨c, hc, hapart, hdrive⟩ := mem_ends_drivePrefix.1 h
  obtain rfl := hdrive.read_eq hread'
  exact ⟨c, q, hc, hapart, hread⟩

/-- **Masking paths** leaves no drive prefix if every one has a second backslash. -/
theorem foundFrom_drivePrefix_rawPath
    (h : ∀ front rest, Drive p front rest → rest.head? = some '\\') :
    drivePrefix.foundFrom p.before (masked rawPath p) = false := by
  have hconsumes := leavesPlaceholder_rawPath.consumes
  refine foundFrom_masked hconsumes leavesPlaceholder_drivePrefix fun past p' before' hpast hnone
    hbefore => List.eq_nil_iff_forall_not_mem.2 fun q' hq' => ?_
  obtain ⟨c, q, hc, hapart, hread⟩ := exists_drive_of_masked hconsumes hq'
  have hapart' : ∀ d ∈ p'.before, Text.isWord d = false := by
    obtain rfl | ⟨⟨p₀, hp₀⟩, -⟩ := hbefore
    · exact hapart
    · obtain ⟨e, he, hfinishes⟩ := exists_before_of_mem_ends hconsumes hp₀
      rintro d hd
      obtain rfl := Option.some.inj (he.symm.trans hd)
      exact isWord_of_finishes_rawPath hfinishes
  have hdrive : Drive p past q.rest := by
    refine ⟨⟨c, hc, ?_⟩, hpast.before ▸ hapart'⟩
    rw [hpast.rest, hread.rest]
    rfl
  exact rawPath_ends_ne_nil hc hread (h past q.rest hdrive) hnone

/-- **Masking addresses** makes no drive prefix. -/
theorem foundFrom_drivePrefix_networkAddress (h : drivePrefix.foundFrom p.before p.rest = false) :
    drivePrefix.foundFrom p.before (masked networkAddress p) = false := by
  have hconsumes := leavesPlaceholder_networkAddress.consumes
  refine foundFrom_masked hconsumes leavesPlaceholder_drivePrefix fun past p' before' hpast _
    hbefore => List.eq_nil_iff_forall_not_mem.2 fun q' hq' => ?_
  obtain ⟨c, q, hc, hapart, hread⟩ := exists_drive_of_masked hconsumes hq'
  obtain rfl | ⟨⟨p₀, hp₀⟩, -⟩ := hbefore
  · -- the drive prefix was there before
    refine foundFrom_drivePrefix_iff.1 h past q.rest ⟨⟨c, hc, ?_⟩, hpast.before ▸ hapart⟩
    rw [hpast.rest, hread.rest]
    rfl
  · -- an address does not end right before a letter
    obtain ⟨more, hmore, -⟩ := reads_of_mem_ends _ p₀ p' hp₀
    obtain ⟨-, e, he, hwe⟩ := words_of_mem_ends hp₀ hmore
    have hended : p'.before = some e := by rw [hmore.before, he, Option.some_or]
    have hnext : p'.rest.head? = some c := by
      rw [hread.rest]
      rfl
    exact not_atWordEdge hended hwe hnext (isWord_of_isAlpha hc) (wordEdges_of_mem_ends hp₀).2

/-- **No drive prefix is left** if every one of the text has a second backslash. -/
theorem not_drive_scrub {s : String}
    (h : ∀ front rest, Drive ⟨none, s.toList⟩ front rest → rest.head? = some '\\')
    (front rest : List Char) : ¬ Drive ⟨none, (scrub s).toList⟩ front rest := by
  rw [toList_scrub]
  have hpaths := foundFrom_drivePrefix_rawPath h
  have haddresses :=
    foundFrom_drivePrefix_networkAddress (p := ⟨none, masked rawPath ⟨none, s.toList⟩⟩) hpaths
  exact (foundFrom_drivePrefix_iff (p := ⟨none, masked networkAddress _⟩)).1 haddresses front rest

/-! ## Drive prefixes that stay -/

/-- **A text shows a drive prefix** without a second backslash, right behind no colon. -/
def ShowsDrive (p : Place) : Prop :=
  ∃ front rest, Drive p front rest ∧ front.getLast?.or p.before ≠ some ':' ∧ rest.head? ≠ some '\\'

/-- The character before what stands behind some characters of a text. -/
theorem getLast?_append_or_before {past : List Char} (h : p.Passes past q) (front : List Char) :
    (past ++ front).getLast?.or p.before = front.getLast?.or q.before := by
  rw [List.getLast?_append, Option.or_assoc, h.before]

theorem Drive.passes_iff {past : List Char} (h : p.Passes past q) :
    Drive p (past ++ front) rest ↔ Drive q front rest := by
  constructor
  · rintro ⟨⟨c, hc, hwhole⟩, hapart⟩
    rw [h.rest, List.append_assoc] at hwhole
    exact ⟨⟨c, hc, List.append_cancel_left hwhole⟩, getLast?_append_or_before h front ▸ hapart⟩
  · rintro ⟨⟨c, hc, hwhole⟩, hapart⟩
    refine ⟨⟨c, hc, ?_⟩, (getLast?_append_or_before h front).symm ▸ hapart⟩
    rw [h.rest, hwhole, List.append_assoc]

/-- What is shown behind some characters of a text is shown. -/
theorem ShowsDrive.of_passes (h : ShowsDrive q) (past : List Char) (hpast : p.Passes past q) :
    ShowsDrive p := by
  obtain ⟨front, rest, hdrive, hcolon, hnext⟩ := h
  refine ⟨past ++ front, rest, (Drive.passes_iff hpast).2 hdrive, ?_, hnext⟩
  rwa [getLast?_append_or_before hpast]

/-- **A pattern that spares drive prefixes**: its matches do not begin with a colon or a backslash, and end
before a drive prefix that they begin before. -/
structure SparesDrives (a : Pattern) : Prop where
  consumes : a.consumes = true
  colon : a.begins ':' = false
  backslash : a.begins '\\' = false
  whole : ∀ {p q : Place} {front rest read : List Char}, q ∈ a.ends p → p.Passes read q →
    Drive p front rest → front.getLast?.or p.before ≠ some ':' → rest.head? ≠ some '\\' →
      ∃ more, front = read ++ more

/-- **A drive prefix that is shown stays** when what is masked spares drive prefixes. -/
theorem ShowsDrive.masked {a : Pattern} (ha : SparesDrives a) (h : ShowsDrive p) :
    ShowsDrive ⟨p.before, masked a p⟩ := by
  have hcons {c : Char} {before : Option Char} {rest : List Char} (hc : a.begins c = false) :
      a.rewriteFrom (fun _ _ => placeholder.toList) ⟨before, c :: rest⟩ =
        c :: a.rewriteFrom (fun _ _ => placeholder.toList) ⟨some c, rest⟩ :=
    rewriteFrom_cons_of_ends_eq_nil (ends_cons_eq_nil_of_begins ha.consumes hc before rest)
  -- behind a match the text goes on with a bracket before it
  refine rewriteFrom_induct (fun _ _ => placeholder.toList) ha.consumes (motive := fun p out =>
    ShowsDrive p → ∀ before', before' = p.before ∨ before' = some ']' → ShowsDrive ⟨before', out⟩)
    ?_ ?_ ?_ p h p.before (.inl rfl)
  · rintro before ⟨front, rest, ⟨⟨c, -, hwhole⟩, -⟩, -⟩
    simp at hwhole
  · rintro before d text hnone ih ⟨front, rest, hdrive, hcolon, hnext⟩ before' hbefore
    have hone : Place.Passes ⟨before, d :: text⟩ [d] ⟨some d, text⟩ := ⟨rfl, rfl⟩
    cases front with
    | nil =>
      obtain ⟨⟨c, hc, hwhole⟩, hapart⟩ := hdrive
      obtain ⟨rfl, rfl⟩ := List.cons.inj hwhole
      rw [hcons ha.colon, hcons ha.backslash]
      refine ⟨[], _, ⟨⟨d, hc, rfl⟩, ?_⟩, ?_, ?_⟩
      · obtain rfl | rfl := hbefore
        · exact hapart
        · rintro e ⟨⟩
          decide
      · obtain rfl | rfl := hbefore
        · exact hcolon
        · simp
      · obtain hhead | ⟨hhead, -⟩ := head?_masked (p := ⟨some '\\', rest⟩) ha.consumes
        · exact hhead ▸ hnext
        · rw [Redaction.masked] at hhead
          rw [hhead]
          decide
    | cons e front =>
      obtain ⟨⟨c, hc, hwhole⟩, -⟩ := id hdrive
      obtain ⟨rfl, -⟩ := List.cons.inj hwhole
      have hshows : ShowsDrive ⟨some d, text⟩ := by
        refine ⟨front, rest, (Drive.passes_iff hone).1 hdrive, ?_, hnext⟩
        rwa [← getLast?_append_or_before hone]
      exact (ih hshows (some d) (.inl rfl)).of_passes [d] ⟨rfl, rfl⟩
  · rintro p q hend ih ⟨front, rest, hdrive, hcolon, hnext⟩ before' -
    have hq := List.mem_of_head? hend
    obtain ⟨read, hread, -⟩ := reads_of_mem_ends a p q hq
    obtain ⟨more, rfl⟩ := ha.whole hq hread hdrive hcolon hnext
    have hshows : ShowsDrive q := by
      refine ⟨more, rest, (Drive.passes_iff hread).1 hdrive, ?_, hnext⟩
      rwa [← getLast?_append_or_before hread]
    exact (ih hshows (some ']') (.inr rfl)).of_passes placeholder.toList ⟨rfl, rfl⟩

/-- A match ends before a drive prefix, or it reads the letter. -/
theorem Drive.read_of_passes (h : Drive p front rest) (hread : p.Passes read q) :
    (∃ more, front = read ++ more) ∨ ∃ c more, c.isAlpha = true ∧ read = front ++ c :: more ∧
      more ++ q.rest = ':' :: '\\' :: rest := by
  obtain ⟨⟨c, hc, hwhole⟩, -⟩ := h
  obtain ⟨more, hfront, -⟩ | ⟨further, hfurther, hrest⟩ :=
    List.append_eq_append_iff.1 (hread.rest.symm.trans hwhole)
  · exact .inl ⟨more, hfront⟩
  · cases further with
    | nil => exact .inl ⟨[], by simpa using hfurther.symm⟩
    | cons d more =>
      obtain ⟨rfl, hmore⟩ := List.cons.inj hrest
      exact .inr ⟨c, more, hc, hfurther, hmore.symm⟩

theorem sparesDrives_rawPath : SparesDrives rawPath where
  consumes := leavesPlaceholder_rawPath.consumes
  colon := by decide
  backslash := by decide
  whole := by
    intro p q front rest read hq hread hdrive hcolon hnext
    refine (hdrive.read_of_passes hread).resolve_right ?_
    rintro ⟨c, more, hc, rfl, hmore⟩
    cases more with
    | nil =>
      -- the beginning of a path does not end with a letter
      have hfinishes := (bounds_of_mem_ends hq hread).last c List.getLast?_concat
      have hword := isWord_of_isAlpha hc
      rw [isWord_of_finishes_rawPath hfinishes] at hword
      cases hword
    | cons d more =>
      obtain ⟨rfl, -⟩ := List.cons.inj hmore
      obtain ⟨pattern, hpattern, hq⟩ := mem_ends_first.1 hq
      obtain rfl | hpattern := List.mem_cons.1 hpattern
      · -- a drive prefix with a second backslash
        obtain ⟨m₁, hm₁, htail⟩ := mem_ends_all.1 hq
        obtain ⟨m₂, hm₂, htail⟩ := mem_ends_all.1 htail
        obtain ⟨m₃, hm₃, hm₄⟩ := mem_ends_all.1 htail
        obtain ⟨l, -, hl⟩ := mem_ends_class.1 hm₁
        have hfour := ((hl.trans (mem_ends_char.1 hm₂)).trans (mem_ends_char.1 hm₃)).trans
          (mem_ends_char.1 hm₄)
        have hspelled := hfour.read_eq hread
        cases front with
        | nil =>
          obtain rfl : ['\\', '\\'] = more := (List.cons.inj (List.cons.inj hspelled).2).2
          have hrest : '\\' :: q.rest = rest := (List.cons.inj (List.cons.inj hmore).2).2
          exact hnext (hrest ▸ rfl)
        | cons e front =>
          have htail : [':', '\\', '\\'] = front ++ c :: ':' :: more := (List.cons.inj hspelled).2
          have hmem : c ∈ [':', '\\', '\\'] := htail ▸ List.mem_append_right _ List.mem_cons_self
          simp only [List.mem_cons, List.not_mem_nil, or_false] at hmem
          obtain rfl | rfl | rfl := hmem <;> cases hc
      · -- the other beginnings have no colon
        have hnone : ∀ b ∈ [anyCase "/home/", anyCase "/root/", anyCase "/users/", anyCase "/tmp/",
            anyCase "/var/", Text.Pattern.word "./", Text.Pattern.word ".."],
            b.reads ':' = false := by decide
        refine notMem_of_reads (hnone pattern hpattern) (reads_of_passes hq hread)
          (List.mem_append_right _ ?_)
        exact List.mem_cons_of_mem _ List.mem_cons_self

/-- **An address does not end with a letter alone** behind what is neither a word character nor a colon. -/
theorem isWord_of_mem_ends_networkAddress {d : Char} (h : q ∈ networkAddress.ends p)
    (hread : p.Passes (front ++ [d, c]) q) (hc : c.isAlpha = true) (hcolon : d ≠ ':') :
    Text.isWord d = true := by
  obtain ⟨pattern, hpattern, h⟩ := mem_ends_first.1 h
  simp only [List.mem_cons, List.not_mem_nil, or_false] at hpattern
  obtain rfl | rfl | rfl := hpattern
  · -- numbers end with a decimal digit
    have hfinishes := (bounds_of_mem_ends h hread).last c (by simp)
    have hdigit : Text.isDecimalDigit c = true := by
      simpa [all, finishes, consumes] using hfinishes
    rw [Text.isDecimalDigit_of_isAlpha hc] at hdigit
    cases hdigit
  · -- what is read between the colons are word characters
    have hreads := reads_of_passes h hread d (by simp)
    have hdigit : Text.isHexDigit d = true := by
      simpa [all, reads, char, hcolon] using hreads
    exact Text.isWord_of_isHexDigit hdigit
  · -- the last part has two characters
    obtain ⟨m, hm, htail⟩ := mem_ends_all.1 h
    obtain ⟨m₁, hm₁, htail⟩ := mem_ends_all.1 htail
    obtain ⟨m₂, hoctet, hedge⟩ := mem_ends_all.1 htail
    obtain ⟨rfl, -⟩ := mem_ends_wordEdge_iff.1 hm
    obtain ⟨rfl, -⟩ := mem_ends_wordEdge_iff.1 hedge
    obtain ⟨past, hpast, -⟩ := reads_of_mem_ends _ _ m₁ hm₁
    obtain ⟨octet, hoctet', hall⟩ := reads_of_mem_ends _ m₁ _ hoctet
    have htwo : 2 ≤ octet.length := least_le_length hoctet hoctet'
    have hwhole := (hpast.trans hoctet').read_eq hread
    have hsuffix : [d, c] <:+ octet :=
      List.suffix_of_suffix_length_le ⟨front, hwhole.symm⟩ ⟨past, rfl⟩ htwo
    exact Text.isWord_of_isHexDigit (hall d (hsuffix.subset List.mem_cons_self))

theorem sparesDrives_networkAddress : SparesDrives networkAddress where
  consumes := leavesPlaceholder_networkAddress.consumes
  colon := by decide
  backslash := by decide
  whole := by
    intro p q front rest read hq hread hdrive hcolon _
    refine (hdrive.read_of_passes hread).resolve_right ?_
    rintro ⟨c, more, hc, rfl, hmore⟩
    have hslash : '\\' ∉ front ++ c :: more :=
      notMem_of_reads (by decide) (reads_of_passes hq hread)
    match more, hmore with
    | [], _ =>
      -- the letter is the last that is read, but not all
      have hleast : 5 ≤ (front ++ [c]).length := least_le_length hq hread
      obtain rfl | ⟨front, d, rfl⟩ := List.eq_nil_or_concat front
      · simp at hleast
      rw [List.concat_eq_append] at hread hdrive hcolon
      have hapart := hdrive.apart d (by simp)
      have hword := isWord_of_mem_ends_networkAddress hq (by simpa using hread) hc
        (fun heq => hcolon (by simp [heq]))
      rw [hapart] at hword
      cases hword
    | [e], hmore =>
      -- an address does not end with a colon
      obtain rfl := (List.cons.inj hmore).1
      obtain ⟨-, last, hlast, hword⟩ := words_of_mem_ends hq hread
      obtain rfl : ':' = last := by simpa using hlast
      revert hword
      decide
    | e :: e' :: more, hmore =>
      obtain rfl := (List.cons.inj (List.cons.inj hmore).2).1
      exact hslash (by simp)

/-- **A drive prefix that a text shows is shown by the scrubbed text.** -/
theorem ShowsDrive.scrub {s : String} (h : ShowsDrive ⟨none, s.toList⟩) :
    ShowsDrive ⟨none, (scrub s).toList⟩ := by
  rw [toList_scrub]
  have hpaths := h.masked sparesDrives_rawPath
  exact hpaths.masked sparesDrives_networkAddress

/-! ## Scrubbed text -/

/-- **What is left of paths in scrubbed text.** No raw directory is, in any case. No drive prefix is either
if every one of the text has a second backslash, and one is left of a text that has one without it, right
behind no colon. -/
theorem scrub_paths (s : String) :
    (∀ word ∈ rawDirectories, ∀ part, part <:+: (scrub s).toList → ¬ Spells word part) ∧
      ((∀ front rest, Drive ⟨none, s.toList⟩ front rest → rest.head? = some '\\') →
        ∀ front rest, ¬ Drive ⟨none, (scrub s).toList⟩ front rest) ∧
      (∀ front rest, Drive ⟨none, s.toList⟩ front rest → front.getLast? ≠ some ':' →
        rest.head? ≠ some '\\' →
          ∃ front rest, Drive ⟨none, (scrub s).toList⟩ front rest) := by
  refine ⟨fun word hword part hpart => not_spells_scrub hword hpart, not_drive_scrub,
    fun front rest hdrive hcolon hnext => ?_⟩
  have hshows : ShowsDrive ⟨none, s.toList⟩ := ⟨front, rest, hdrive, by rwa [Option.or_none], hnext⟩
  obtain ⟨front', rest', hdrive', -⟩ := hshows.scrub
  exact ⟨front', rest', hdrive'⟩

/-- The drive prefix of a path with doubled backslashes is not left. -/
theorem scrub_paths_doubled :
    (∀ front rest, Drive ⟨none, "C:\\\\x".toList⟩ front rest → rest.head? = some '\\') ∧
      ∀ front rest, ¬ Drive ⟨none, (scrub "C:\\\\x").toList⟩ front rest := by
  have h : ∀ front rest, Drive ⟨none, "C:\\\\x".toList⟩ front rest → rest.head? = some '\\' := by
    rintro front rest ⟨⟨c, -, hwhole⟩, -⟩
    have htext : ['C', ':', '\\', '\\', 'x'] = front ++ c :: ':' :: '\\' :: rest := hwhole
    match front, htext with
    | [], htext => exact (List.cons.inj (List.cons.inj (List.cons.inj htext).2).2).2 ▸ rfl
    | [_], htext => simp at htext
    | [_, _], htext => simp at htext
    | _ :: _ :: _ :: front, htext =>
      have hlength := congrArg List.length htext
      simp only [List.length_cons, List.length_append, List.length_nil] at hlength
      omega
  exact ⟨h, (scrub_paths _).2.1 h⟩

/-- **The path of a directory on a drive** goes out as it is. -/
theorem drive_shown :
    scrub "C:\\Users\\me" = "C:\\Users\\me" ∧
      Drive ⟨none, (scrub "C:\\Users\\me").toList⟩ [] "Users\\me".toList := by
  have hscrub : scrub "C:\\Users\\me" = "C:\\Users\\me" := by decide +kernel
  rw [hscrub]
  exact ⟨rfl, ⟨'C', by decide, by decide⟩, by simp⟩

end Redaction
end Conventions
