import Conventions.Proofs.Accuracy.Corpus
import Mathlib.Data.List.TakeWhile

/-!
# Proofs/Accuracy/Plans — a plan measures what was asked for

A request is some texts, and each writes an entry: a facet key, perhaps with a label behind the first
colon (`Entry.WrittenAs`). It is refused if it has no entry, or else by the first one that asks for
something that no case expects (`Refuses`). Any other request has a plan, which measures a label
exactly if an entry asks for it or for its whole key (`MeasuresFor`); so the plan depends on which texts
there are, and not on their order or number (`ofRequest_measures`).
-/

namespace Conventions

/-! ## What a corpus expects -/

namespace Corpus

variable {corpus : Corpus} {key label : String}

/-- **Some case of a corpus expects a label** for a key. -/
def Expects (corpus : Corpus) (key label : String) : Prop :=
  ∃ case ∈ corpus.cases, (key, label) ∈ case.expected

theorem mem_labels : (key, label) ∈ corpus.labels ↔ corpus.Expects key label := by
  rw [labels, List.mem_eraseDups, List.mem_flatMap, Expects]

theorem mem_facetKeys : key ∈ corpus.facetKeys ↔ ∃ label, corpus.Expects key label := by
  simp only [facetKeys, Text.mem_distinct, List.mem_flatMap, List.mem_map, Prod.exists,
    exists_and_right, exists_eq_right, Expects]
  exact ⟨fun ⟨case, hcase, label, h⟩ => ⟨label, case, hcase, h⟩,
    fun ⟨label, case, hcase, h⟩ => ⟨case, hcase, label, h⟩⟩

end Corpus

namespace MeasurePlan

/-! ## Entries -/

namespace Entry

variable {e : Entry} {corpus : Corpus} {key text : String} {fault : CorpusFault}

/-- **A text writes an entry**: as its key alone, with a colon and nothing behind it, or with a colon
and the label. The key has no colon, so the label is what stands behind the first one. -/
inductive WrittenAs : Entry → String → Prop
  | key {key : String} (h : ':' ∉ key.toList) : WrittenAs ⟨key, none⟩ key
  | whole {key : String} (h : ':' ∉ key.toList) : WrittenAs ⟨key, none⟩ (key ++ ":")
  | label {key label : String} (h : ':' ∉ key.toList) (hlabel : label ≠ "") :
      WrittenAs ⟨key, some label⟩ (key ++ ":" ++ label)

theorem ofText_of_not_colon (h : ':' ∉ key.toList) : ofText key = ⟨key, none⟩ := by
  have hkey : key.toList.takeWhile (· != ':') = key.toList :=
    List.takeWhile_eq_self_iff.2 fun c hc => bne_iff_ne.2 fun heq => h (heq ▸ hc)
  simp [ofText, hkey]

theorem ofText_append (h : ':' ∉ key.toList) (rest : String) :
    ofText (key ++ ":" ++ rest) = ⟨key, if rest = "" then none else some rest⟩ := by
  have hcolon : ":".toList = [':'] := by decide
  have hkey : (key ++ ":" ++ rest).toList.takeWhile (· != ':') = key.toList := by
    have hpos : ∀ c ∈ key.toList, (c != ':') = true := fun c hc =>
      bne_iff_ne.2 fun heq => h (heq ▸ hc)
    rw [String.toList_append, String.toList_append, List.append_assoc,
      List.takeWhile_append_of_pos hpos, hcolon]
    simp
  have hrest : (key ++ ":" ++ rest).toList.drop (key.toList.length + 1) = rest.toList := by
    rw [String.toList_append, String.toList_append, hcolon]
    exact List.drop_left' (by simp)
  simp only [ofText, hkey, hrest, String.ofList_toList, List.isEmpty_iff, String.toList_eq_nil_iff]

/-- A text has no colon, or it is divided by its first one. -/
theorem exists_cut (text : String) :
    ':' ∉ text.toList ∨ ∃ key rest : String, ':' ∉ key.toList ∧ text = key ++ ":" ++ rest := by
  by_cases hcolon : ':' ∈ text.toList
  · obtain ⟨key, rest, htext, hkey⟩ := List.eq_append_cons_of_mem hcolon
    refine .inr ⟨String.ofList key, String.ofList rest, by rwa [String.toList_ofList],
      String.toList_inj.1 ?_⟩
    simp [String.toList_append, htext]
  · exact .inl hcolon

/-- **Every text writes one entry**, the one that is read. -/
theorem ofText_eq_iff : ofText text = e ↔ e.WrittenAs text := by
  constructor
  · rintro rfl
    obtain h | ⟨key, rest, h, rfl⟩ := exists_cut text
    · rw [ofText_of_not_colon h]
      exact .key h
    · rw [ofText_append h]
      by_cases hrest : rest = ""
      · subst hrest
        rw [if_pos rfl, String.append_empty]
        exact .whole h
      · rw [if_neg hrest]
        exact .label h hrest
  · rintro (h | h | ⟨h, hlabel⟩)
    · exact ofText_of_not_colon h
    · exact (congrArg ofText String.append_empty.symm).trans (ofText_append h "")
    · rw [ofText_append h, if_neg hlabel]

/-! ### Entries that can be measured -/

/-- **An entry can be measured**: its key is understood and some case expects a label for it; if it names
a label, the vocabulary knows it for the key, and some case expects it. -/
structure IsMeasurable (corpus : Corpus) (e : Entry) : Prop where
  understood : ∃ named, FacetKey.parse e.key = .ok named
  labelled : ∃ label, corpus.Expects e.key label
  known : ∀ label, e.label = some label → FacetKey.Knows e.key label
  expected : ∀ label, e.label = some label → corpus.Expects e.key label

/-- **What is wrong with an entry**: its key or its label is not in the vocabulary, or no case expects a
label for the key, or this one. The first of these is told. -/
inductive IsFaulty (corpus : Corpus) (e : Entry) : CorpusFault → Prop
  | unknownKey {fault : VocabularyError} (h : FacetKey.parse e.key = .error fault) :
      IsFaulty corpus e (.unknownMeasure fault)
  | unknownLabel {label : String} {fault : VocabularyError} (hlabel : e.label = some label)
      (hkey : ∃ named, FacetKey.parse e.key = .ok named)
      (h : FacetKey.checkLabel e.key label = .error fault) :
      IsFaulty corpus e (.unknownMeasure fault)
  | unlabelledKey (hkey : ∃ named, FacetKey.parse e.key = .ok named)
      (hknown : ∀ label, e.label = some label → FacetKey.Knows e.key label)
      (h : ∀ label, ¬corpus.Expects e.key label) : IsFaulty corpus e (.unlabelledKey e.key)
  | unexpectedLabel {label : String} (hlabel : e.label = some label)
      (hknown : FacetKey.Knows e.key label) (hkey : ∃ other, corpus.Expects e.key other)
      (h : ¬corpus.Expects e.key label) : IsFaulty corpus e (.unexpectedLabel e.key label)

theorem fault?_of_key {key : String} (hkey : ∃ named, FacetKey.parse key = .ok named) :
    fault? corpus ⟨key, none⟩ =
      if corpus.facetKeys.contains key then none else some (.unlabelledKey key) := by
  obtain ⟨named, hparse⟩ := hkey
  simp only [fault?, hparse, Option.bind_none]
  split_ifs <;> rfl

theorem fault?_of_label {key label : String} (hknown : FacetKey.Knows key label) :
    fault? corpus ⟨key, some label⟩ =
      if corpus.facetKeys.contains key then
        if corpus.labels.contains (key, label) then none else some (.unexpectedLabel key label)
      else some (.unlabelledKey key) := by
  have hcheck := FacetKey.checkLabel_eq_ok_iff.2 hknown
  obtain ⟨c, facet, ls, hparse, -⟩ := hknown
  simp only [fault?, hparse, Option.bind_some, hcheck]
  split_ifs <;> rfl

/-- An entry can be measured or is at fault. -/
theorem isMeasurable_or_isFaulty (corpus : Corpus) (e : Entry) :
    e.IsMeasurable corpus ∨ ∃ fault, e.IsFaulty corpus fault := by
  cases hparse : FacetKey.parse e.key with
  | error fault => exact .inr ⟨_, .unknownKey hparse⟩
  | ok named =>
    have hkey : ∃ named, FacetKey.parse e.key = .ok named := ⟨named, hparse⟩
    by_cases hknown : ∀ label, e.label = some label → FacetKey.Knows e.key label
    · by_cases hlabelled : ∃ label, corpus.Expects e.key label
      · by_cases hexpected : ∀ label, e.label = some label → corpus.Expects e.key label
        · exact .inl ⟨hkey, hlabelled, hknown, hexpected⟩
        · push Not at hexpected
          obtain ⟨label, hlabel, hnone⟩ := hexpected
          exact .inr ⟨_, .unexpectedLabel hlabel (hknown label hlabel) hlabelled hnone⟩
      · exact .inr ⟨_, .unlabelledKey hkey hknown (not_exists.1 hlabelled)⟩
    · push Not at hknown
      obtain ⟨label, hlabel, hnot⟩ := hknown
      cases hcheck : FacetKey.checkLabel e.key label with
      | error fault => exact .inr ⟨_, .unknownLabel hlabel hkey hcheck⟩
      | ok => exact absurd (FacetKey.checkLabel_eq_ok_iff.1 hcheck) hnot

theorem IsMeasurable.fault?_eq (h : e.IsMeasurable corpus) : e.fault? corpus = none := by
  obtain ⟨key, label⟩ := e
  have hkey : corpus.facetKeys.contains key = true :=
    List.contains_iff_mem.2 (Corpus.mem_facetKeys.2 h.labelled)
  cases label with
  | none => rw [fault?_of_key h.understood, if_pos hkey]
  | some label =>
    have hlabel : corpus.labels.contains (key, label) = true :=
      List.contains_iff_mem.2 (Corpus.mem_labels.2 (h.expected label rfl))
    rw [fault?_of_label (h.known label rfl), if_pos hkey, if_pos hlabel]

theorem IsFaulty.fault?_eq (h : e.IsFaulty corpus fault) : e.fault? corpus = some fault := by
  obtain ⟨key, named?⟩ := e
  cases h with
  | unknownKey h => rw [fault?, h]
  | unknownLabel hlabel hkey h =>
    obtain ⟨named, hparse⟩ := hkey
    obtain rfl : named? = some _ := hlabel
    simp only [fault?, hparse, Option.bind_some, h]
    rfl
  | unlabelledKey hkey hknown h =>
    have hnone : ¬corpus.facetKeys.contains key = true := by
      rw [List.contains_iff_mem, Corpus.mem_facetKeys]
      exact not_exists.2 h
    cases named? with
    | none => rw [fault?_of_key hkey, if_neg hnone]
    | some label => rw [fault?_of_label (hknown label rfl), if_neg hnone]
  | unexpectedLabel hlabel hknown hkey h =>
    obtain rfl : named? = some _ := hlabel
    rw [fault?_of_label hknown, if_pos (List.contains_iff_mem.2 (Corpus.mem_facetKeys.2 hkey)),
      if_neg (by rwa [List.contains_iff_mem, Corpus.mem_labels])]

end Entry

/-! ## Requests that are refused -/

variable {corpus : Corpus} {texts texts' : List String} {entries entries' : List Entry}
  {plan : MeasurePlan} {fault : CorpusFault} {key label : String}

/-- **A text asks for something that can be measured.** -/
def Asks (corpus : Corpus) (text : String) : Prop :=
  ∃ e : Entry, e.WrittenAs text ∧ e.IsMeasurable corpus

/-- **Why a request is refused**: it has no entry, or its first one that cannot be measured is at
fault. -/
inductive Refuses (corpus : Corpus) : List String → CorpusFault → Prop
  | nothing : Refuses corpus [] .nothingToMeasure
  | entry {before after : List String} {text : String} {e : Entry} {fault : CorpusFault}
      (hbefore : ∀ t ∈ before, Asks corpus t) (htext : e.WrittenAs text)
      (h : e.IsFaulty corpus fault) : Refuses corpus (before ++ text :: after) fault

theorem asks_iff {text : String} : Asks corpus text ↔ (Entry.ofText text).IsMeasurable corpus := by
  simp only [Asks, ← Entry.ofText_eq_iff, exists_eq_left']

theorem ofRequest_of_asks (hne : texts ≠ []) (h : ∀ text ∈ texts, Asks corpus text) :
    ofRequest corpus (some texts) = .ok (ofEntries (texts.map Entry.ofText)) := by
  have hnone : (texts.map Entry.ofText).findSome? (Entry.fault? corpus) = none := by
    rw [List.findSome?_eq_none_iff]
    exact List.forall_mem_map.2 fun text htext => (asks_iff.1 (h text htext)).fault?_eq
  have hsome : (texts.map Entry.ofText).isEmpty = false := by
    simpa using hne
  simp only [ofRequest, hnone, hsome, Bool.false_eq_true, if_false]

theorem Refuses.ofRequest_eq (h : Refuses corpus texts fault) :
    ofRequest corpus (some texts) = .error fault := by
  cases h with
  | nothing => rfl
  | @entry before after text e fault hbefore htext h =>
    have hfind : ((before ++ text :: after).map Entry.ofText).findSome? (Entry.fault? corpus) =
        some fault := by
      rw [List.map_append, List.map_cons, Entry.ofText_eq_iff.2 htext, List.findSome?_append,
        List.findSome?_cons, h.fault?_eq, List.findSome?_eq_none_iff.2, Option.none_or]
      exact List.forall_mem_map.2 fun t ht => (asks_iff.1 (hbefore t ht)).fault?_eq
    simp only [ofRequest, hfind]

/-- **Every text asks for something**, or there is a first one that does not. -/
theorem asks_or_refuses (corpus : Corpus) (texts : List String) :
    (∀ text ∈ texts, Asks corpus text) ∨ ∃ fault, Refuses corpus texts fault := by
  induction texts using List.reverseRecOn with
  | nil => exact .inl fun text h => absurd h List.not_mem_nil
  | append_singleton before text ih =>
    have hlast (hbefore : ∀ t ∈ before, Asks corpus t) :
        (∀ t ∈ before ++ [text], Asks corpus t) ∨
          ∃ fault, Refuses corpus (before ++ [text]) fault := by
      obtain h | ⟨fault, h⟩ := (Entry.ofText text).isMeasurable_or_isFaulty corpus
      · refine .inl (List.forall_mem_append.2 ⟨hbefore, ?_⟩)
        exact List.forall_mem_singleton.2 (asks_iff.2 h)
      · exact .inr ⟨fault, .entry hbefore (Entry.ofText_eq_iff.1 rfl) h⟩
    obtain hbefore | ⟨fault, h⟩ := ih
    · exact hlast hbefore
    · cases h with
      | nothing => exact hlast fun t ht => absurd ht List.not_mem_nil
      | entry hbefore htext h =>
        rw [List.append_assoc, List.cons_append]
        exact .inr ⟨fault, .entry hbefore htext h⟩

theorem exists_ofRequest_iff : (∃ plan, ofRequest corpus (some texts) = .ok plan) ↔
    texts ≠ [] ∧ ∀ text ∈ texts, Asks corpus text := by
  constructor
  · rintro ⟨plan, hplan⟩
    refine ⟨fun hnil => ?_, ?_⟩
    · subst hnil
      cases hplan
    · refine (asks_or_refuses corpus texts).resolve_right fun ⟨fault, h⟩ => ?_
      cases hplan.symm.trans h.ofRequest_eq
  · exact fun h => ⟨_, ofRequest_of_asks h.1 h.2⟩

theorem ofRequest_eq_error_iff :
    ofRequest corpus (some texts) = .error fault ↔ Refuses corpus texts fault := by
  refine ⟨fun herror => ?_, Refuses.ofRequest_eq⟩
  have hrefuses : ∃ fault, Refuses corpus texts fault := by
    by_cases hne : texts = []
    · exact ⟨.nothingToMeasure, hne ▸ Refuses.nothing⟩
    · refine (asks_or_refuses corpus texts).resolve_left fun h => ?_
      cases (ofRequest_of_asks hne h).symm.trans herror
  obtain ⟨fault', h⟩ := hrefuses
  exact Except.error.inj (h.ofRequest_eq.symm.trans herror) ▸ h

/-! ## What a plan measures -/

/-- **A plan measures what some texts ask for**: its keys are theirs, in order and each once, and a label
is measured if one of them asks for it or for its whole key. -/
structure MeasuresFor (texts : List String) (plan : MeasurePlan) : Prop where
  sorted : plan.keys.Pairwise (· < ·)
  keys : ∀ key, key ∈ plan.keys ↔ ∃ text ∈ texts, ∃ label, Entry.WrittenAs ⟨key, label⟩ text
  includes : ∀ key label, plan.includes key label = true ↔
    (∃ text ∈ texts, Entry.WrittenAs ⟨key, none⟩ text) ∨
      ∃ text ∈ texts, Entry.WrittenAs ⟨key, some label⟩ text

theorem any_isNone_iff :
    ((entries.filter fun e => e.key == key).any fun e => e.label.isNone) = true ↔
      ⟨key, none⟩ ∈ entries := by
  simp only [List.any_eq_true, List.mem_filter, beq_iff_eq, Option.isNone_iff_eq_none]
  constructor
  · rintro ⟨⟨_, _⟩, ⟨hmem, rfl⟩, rfl⟩
    exact hmem
  · exact fun h => ⟨_, ⟨h, rfl⟩, rfl⟩

/-- A key is not narrowed if its whole is asked for. -/
theorem narrowing?_eq_none_iff : narrowing? entries key = none ↔ ⟨key, none⟩ ∈ entries := by
  rw [narrowing?, ← any_isNone_iff]
  simp

/-- A key is narrowed to the labels that are asked for. -/
theorem mem_of_narrowing? {labels : List String} (h : narrowing? entries key = some labels) :
    label ∈ labels ↔ ⟨key, some label⟩ ∈ entries := by
  simp only [narrowing?, Option.ite_none_left_eq_some, Option.some.injEq] at h
  obtain ⟨-, rfl⟩ := h
  simp only [Text.mem_distinct, List.mem_filterMap, List.mem_filter, beq_iff_eq]
  constructor
  · rintro ⟨⟨_, _⟩, ⟨hmem, rfl⟩, rfl⟩
    exact hmem
  · exact fun h => ⟨_, ⟨h, rfl⟩, rfl⟩

theorem mem_narrowed {labels : List String} : (key, labels) ∈ (ofEntries entries).narrowed ↔
    key ∈ entries.map (·.key) ∧ narrowing? entries key = some labels := by
  simp only [ofEntries, List.mem_filterMap, Text.mem_distinct, Option.map_eq_some_iff,
    Prod.mk.injEq]
  constructor
  · rintro ⟨_, hkey, _, hlabels, rfl, rfl⟩
    exact ⟨hkey, hlabels⟩
  · exact fun ⟨hkey, hlabels⟩ => ⟨key, hkey, labels, hlabels, rfl, rfl⟩

theorem mem_keys : key ∈ (ofEntries entries).keys ↔ ∃ label, ⟨key, label⟩ ∈ entries := by
  simp only [ofEntries, Text.mem_distinct, List.mem_map]
  constructor
  · rintro ⟨e, he, rfl⟩
    exact ⟨e.label, he⟩
  · exact fun ⟨label, he⟩ => ⟨_, he, rfl⟩

/-- **A label is measured** if an entry asks for its whole key or for the label. -/
theorem includes_ofEntries : (ofEntries entries).includes key label = true ↔
    ⟨key, none⟩ ∈ entries ∨ ⟨key, some label⟩ ∈ entries := by
  rw [includes, Bool.and_eq_true, List.contains_iff_mem, mem_keys]
  cases hfind : (ofEntries entries).narrowed.find? fun e => e.1 == key with
  | some e =>
    obtain ⟨key', labels⟩ := e
    obtain rfl : key' = key := by simpa using List.find?_some hfind
    obtain ⟨-, hlabels⟩ := mem_narrowed.1 (List.mem_of_find?_eq_some hfind)
    have hnone : ⟨key', none⟩ ∉ entries := by simp [← narrowing?_eq_none_iff, hlabels]
    simp only [hnone, false_or, List.contains_iff_mem, mem_of_narrowing? hlabels]
    exact and_iff_right_of_imp fun h => ⟨_, h⟩
  | none =>
    simp only [and_true]
    constructor
    · rintro ⟨label', hmem⟩
      refine .inl (narrowing?_eq_none_iff.1 (Option.eq_none_iff_forall_ne_some.2 fun labels h => ?_))
      have hnarrowed := mem_narrowed.2 ⟨List.mem_map.2 ⟨_, hmem, rfl⟩, h⟩
      simpa using List.find?_eq_none.1 hfind _ hnarrowed
    · rintro (h | h)
      · exact ⟨_, h⟩
      · exact ⟨_, h⟩

theorem narrowing?_congr (h : ∀ e, e ∈ entries ↔ e ∈ entries') :
    narrowing? entries key = narrowing? entries' key := by
  have hwhole : ((entries.filter fun e => e.key == key).any fun e => e.label.isNone) =
      (entries'.filter fun e => e.key == key).any fun e => e.label.isNone := by
    rw [Bool.eq_iff_iff, any_isNone_iff, any_isNone_iff, h]
  have hlabels : Text.distinct ((entries.filter fun e => e.key == key).filterMap (·.label)) =
      Text.distinct ((entries'.filter fun e => e.key == key).filterMap (·.label)) := by
    refine Text.distinct_congr fun label => ?_
    simp only [List.mem_filterMap, List.mem_filter, h]
  simp only [narrowing?, hwhole, hlabels]

/-- **A plan asks which entries there are**, and not for their order or number. -/
theorem ofEntries_congr (h : ∀ e, e ∈ entries ↔ e ∈ entries') :
    ofEntries entries = ofEntries entries' := by
  have hkeys : Text.distinct (entries.map (·.key)) = Text.distinct (entries'.map (·.key)) := by
    refine Text.distinct_congr fun key => ?_
    simp only [List.mem_map, h]
  simp only [ofEntries, hkeys, narrowing?_congr h]

/-- **The plan for a request** measures what its texts ask for. -/
theorem measuresFor_of_ofRequest (h : ofRequest corpus (some texts) = .ok plan) :
    plan.MeasuresFor texts := by
  obtain ⟨hne, hasks⟩ := exists_ofRequest_iff.1 ⟨plan, h⟩
  obtain rfl := Except.ok.inj ((ofRequest_of_asks hne hasks).symm.trans h)
  have hentries (e : Entry) : e ∈ texts.map Entry.ofText ↔ ∃ text ∈ texts, e.WrittenAs text := by
    simp only [List.mem_map, Entry.ofText_eq_iff]
  refine ⟨Text.pairwise_distinct _, fun key => ?_, fun key label => ?_⟩
  · rw [mem_keys]
    simp only [hentries]
    exact ⟨fun ⟨label, text, htext, h⟩ => ⟨text, htext, label, h⟩,
      fun ⟨text, htext, label, h⟩ => ⟨label, text, htext, h⟩⟩
  · rw [includes_ofEntries, hentries, hentries]

/-- **Requests with the same texts** have the same plan. -/
theorem ofRequest_congr (h : ofRequest corpus (some texts) = .ok plan)
    (htexts : ∀ text, text ∈ texts ↔ text ∈ texts') :
    ofRequest corpus (some texts') = .ok plan := by
  obtain ⟨hne, hasks⟩ := exists_ofRequest_iff.1 ⟨plan, h⟩
  have hne' : texts' ≠ [] := by
    obtain ⟨text, htext⟩ := List.exists_mem_of_ne_nil texts hne
    exact List.ne_nil_of_mem ((htexts text).1 htext)
  rw [ofRequest_of_asks hne hasks] at h
  rw [ofRequest_of_asks hne' fun text htext => hasks text ((htexts text).2 htext), ← h]
  refine congrArg Except.ok (ofEntries_congr fun e => ?_)
  simp only [List.mem_map, htexts]

/-- **A plan is exactly what was asked for.** A list of texts has a plan if there are some and each asks
for something that can be measured, and is refused otherwise. The plan measures what they ask for, and is
the same for every list with the same texts. Without a list, all is measured that some case expects. -/
theorem ofRequest_measures (corpus : Corpus) :
    (∀ texts, (∃ plan, ofRequest corpus (some texts) = .ok plan) ↔
      texts ≠ [] ∧ ∀ text ∈ texts, Asks corpus text) ∧
    (∀ texts fault, ofRequest corpus (some texts) = .error fault ↔ Refuses corpus texts fault) ∧
    (∀ texts plan, ofRequest corpus (some texts) = .ok plan → plan.MeasuresFor texts ∧
      ∀ texts', (∀ text, text ∈ texts ↔ text ∈ texts') →
        ofRequest corpus (some texts') = .ok plan) ∧
    ∃ plan, ofRequest corpus none = .ok plan ∧ plan.keys.Pairwise (· < ·) ∧
      (∀ key, key ∈ plan.keys ↔ ∃ label, corpus.Expects key label) ∧
        ∀ key label, plan.includes key label = true ↔ ∃ other, corpus.Expects key other := by
  refine ⟨fun _ => exists_ofRequest_iff, fun _ _ => ofRequest_eq_error_iff,
    fun texts plan h => ⟨measuresFor_of_ofRequest h, fun _ => ofRequest_congr h⟩,
    everything corpus, rfl, Text.pairwise_distinct _, fun key => Corpus.mem_facetKeys,
    fun key label => ?_⟩
  rw [includes, everything, List.find?_nil, Bool.and_true, List.contains_iff_mem,
    Corpus.mem_facetKeys]

end MeasurePlan
end Conventions
