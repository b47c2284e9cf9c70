import Mathlib
import Conventions.Proofs.Catalogue.PastComments.Responses

/-!
# Proofs/Catalogue/Payloads — a payload is judged by its keys

The members of an object are written for names (`WrittenFor`): a pair for the name that its key spells,
plainly or in quotes, and a name by itself for itself. Spreads, methods and comments are written for
nothing. An object has a key if some member is written for it, and keeps what is written last (`Keeps`).

The keys that are read off an object are the names that its members are written for
(`IsWrittenOut.mem_names_iff`), and what is found under a key is what the object keeps for it
(`IsWrittenOut.find?_objectKeys_iff`). So two objects with the same keys make the same envelope, in
whatever order, however often and in whichever spelling the keys are written, and the same error format
if what they keep for `error` is an object in both or in neither (`payload_judged_by_keys`).
-/

namespace Conventions
namespace Node

open Shape

variable {s s' : Source} {n n' key m c : Node} {name : String} {value : Option Node}

/-! ## What the members of an object are written for -/

/-- **A key spells a name**: it is the name, or holds it between quotes. -/
inductive SpellsName (s : Source) (key : Node) : String → Prop
  | plain (hkind : key.kind = .propertyIdentifier) : SpellsName s key (key.text s)
  | quoted {name : String} {quote : Char} (hkind : key.kind = .stringLiteral)
      (hquote : quote = '\'' ∨ quote = '"')
      (hslice : s.slice key.span = quote :: (name.toList ++ [quote])) : SpellsName s key name

/-- **A member of an object is written for a name**, with a value or by itself. -/
inductive WrittenFor (s : Source) (m : Node) : String → Option Node → Prop
  | pair {key : Node} {name : String} (hkind : m.kind = .pair) (hkey : m.child? .key = some key)
      (hname : key.SpellsName s name) : WrittenFor s m name (m.child? .value)
  | alone (hkind : m.kind = .shorthandPropertyIdentifier) : WrittenFor s m (m.text s) none

/-- **The members of an object that is written out**: pairs with a spelled key, names by themselves,
spreads, methods and comments. -/
inductive IsMember (s : Source) (m : Node) : Prop
  | pair {key : Node} {name : String} (hkind : m.kind = .pair) (hkey : m.child? .key = some key)
      (hname : key.SpellsName s name)
  | alone (hkind : m.kind = .shorthandPropertyIdentifier)
  | spread (hkind : m.kind = .other "spread_element")
  | method (hkind : m.kind = .methodDefinition)
  | comment (hkind : m.kind = .comment)

/-- **An object that is written out**, with any members in any order and number. -/
structure IsWrittenOut (s : Source) (n : Node) : Prop where
  kind : n.kind = .object
  members : ∀ m ∈ n.children, m.IsMember s

/-- Is a member of an object written for a name? -/
def HasKey (s : Source) (n : Node) (name : String) : Prop :=
  ∃ m ∈ n.children, ∃ value, m.WrittenFor s name value

/-- **An object keeps for a name** what is written for it last. -/
def Keeps (s : Source) (n : Node) (name : String) (value : Option Node) : Prop :=
  ∃ front m back, n.children = front ++ m :: back ∧ m.WrittenFor s name value ∧
    ∀ c ∈ back, ∀ value', ¬ c.WrittenFor s name value'

/-- Is what an object keeps for a name an object, perhaps in parentheses? -/
def KeepsObject (s : Source) (n : Node) (name : String) : Prop :=
  ∃ v o, n.Keeps s name (some v) ∧ v.unwrapped? = some o ∧ o.kind = .object

/-! ## What is read off an object -/

theorem SpellsName.read_eq (h : key.SpellsName s name) :
    (key.literal? s).getD (key.text s) = name := by
  cases h with
  | plain hkind => simp [literal?, hkind]
  | quoted hkind _ hslice =>
    have hdrop : ((s.slice key.span).drop 1).dropLast = name.toList := by
      rw [hslice, List.drop_one, List.tail_cons, List.dropLast_concat]
    rw [literal?, if_pos (.inl hkind), hdrop, String.ofList_toList, Option.getD_some]

theorem WrittenFor.keyWritten?_eq (h : m.WrittenFor s name value) :
    keyWritten? s m = some (name, value) := by
  cases h with
  | pair hkind hkey hname => simp [keyWritten?, hkind, hkey, hname.read_eq]
  | alone hkind => simp [keyWritten?, hkind]

theorem IsMember.keyWritten?_iff (h : m.IsMember s) :
    keyWritten? s m = some (name, value) ↔ m.WrittenFor s name value := by
  refine ⟨fun hwritten => ?_, WrittenFor.keyWritten?_eq⟩
  cases h with
  | pair hkind hkey hname =>
    have hpair := WrittenFor.pair hkind hkey hname
    obtain ⟨rfl, rfl⟩ := Prod.mk.inj (Option.some.inj (hpair.keyWritten?_eq.symm.trans hwritten))
    exact hpair
  | alone hkind =>
    have halone := WrittenFor.alone (s := s) hkind
    obtain ⟨rfl, rfl⟩ := Prod.mk.inj (Option.some.inj (halone.keyWritten?_eq.symm.trans hwritten))
    exact halone
  | spread hkind => simp [keyWritten?, hkind] at hwritten
  | method hkind => simp [keyWritten?, hkind] at hwritten
  | comment hkind => simp [keyWritten?, hkind] at hwritten

theorem IsWrittenOut.written_eq (h : n.IsWrittenOut s) :
    n.written s = n.children.filterMap (keyWritten? s) := if_pos h.kind

/-- **The keys of an object** are the names that its members are written for. -/
theorem IsWrittenOut.mem_names_iff (h : n.IsWrittenOut s) :
    name ∈ (n.objectKeys s).names ↔ n.HasKey s name := by
  rw [Node.mem_names_iff, h.written_eq]
  constructor
  · rintro ⟨⟨name, value⟩, hmem, rfl⟩
    obtain ⟨m, hm, hwritten⟩ := List.mem_filterMap.1 hmem
    exact ⟨m, hm, value, (h.members m hm).keyWritten?_iff.1 hwritten⟩
  · rintro ⟨m, hm, value, hwritten⟩
    exact ⟨(name, value), List.mem_filterMap.2 ⟨m, hm, hwritten.keyWritten?_eq⟩, rfl⟩

/-- **What is found under a key** is what the object keeps for it. -/
theorem IsWrittenOut.find?_objectKeys_iff (h : n.IsWrittenOut s) :
    (n.objectKeys s).find? (·.1 == name) = some (name, value) ↔ n.Keeps s name value := by
  rw [Node.find?_objectKeys, h.written_eq]
  constructor
  · intro hfound
    obtain ⟨-, later, earlier, hreverse, hlater⟩ := List.find?_eq_some_iff_append.1 hfound
    have hwritten : n.children.filterMap (keyWritten? s) =
        earlier.reverse ++ (name, value) :: later.reverse := by
      rw [← List.reverse_inj, hreverse]
      simp
    obtain ⟨front, rest, hchildren, -, hrest⟩ := List.filterMap_eq_append_iff.1 hwritten
    obtain ⟨skipped, m, back, rfl, -, hm, hback⟩ := List.filterMap_eq_cons_iff.1 hrest
    have hmem : ∀ c ∈ m :: back, c ∈ n.children := fun c hc => by
      rw [hchildren]
      exact List.mem_append_right _ (List.mem_append_right _ hc)
    refine ⟨front ++ skipped, m, back, by rw [hchildren, List.append_assoc],
      (h.members m (hmem m List.mem_cons_self)).keyWritten?_iff.1 hm, fun c hc value' hwritten => ?_⟩
    have hlast : (name, value') ∈ later := by
      rw [← List.mem_reverse, ← hback]
      exact List.mem_filterMap.2 ⟨c, hc, hwritten.keyWritten?_eq⟩
    simpa using hlater _ hlast
  · rintro ⟨front, m, back, hchildren, hm, hback⟩
    have hmem : ∀ c ∈ back, c ∈ n.children := fun c hc => by
      rw [hchildren]
      exact List.mem_append_right _ (List.mem_cons_of_mem _ hc)
    have hnone : (back.filterMap (keyWritten? s)).reverse.find? (·.1 == name) = none := by
      refine List.find?_eq_none.2 fun e he heq => ?_
      obtain ⟨c, hc, hwritten⟩ := List.mem_filterMap.1 (List.mem_reverse.1 he)
      obtain rfl := eq_of_beq heq
      exact hback c hc e.2 ((h.members c (hmem c hc)).keyWritten?_iff.1 hwritten)
    rw [hchildren, List.filterMap_append, List.filterMap_cons_some hm.keyWritten?_eq,
      List.reverse_append, List.reverse_cons, List.append_assoc, List.find?_append, hnone,
      Option.none_or, List.singleton_append, find?_cons_key, if_pos rfl]

theorem Keeps.unique (h : n.IsWrittenOut s) {value' : Option Node} (hv : n.Keeps s name value)
    (hv' : n.Keeps s name value') : value = value' := by
  have hsame := (h.find?_objectKeys_iff.2 hv).symm.trans (h.find?_objectKeys_iff.2 hv')
  exact (Prod.mk.inj (Option.some.inj hsame)).2

/-! ## Objects with the same keys -/

theorem SameWords.of_mem_iff {ks ls : List String} (h : ∀ w, w ∈ ks ↔ w ∈ ls) :
    SameWords ks ls where
  nil := by simp only [List.eq_nil_iff_forall_not_mem, h]
  mem := fun w _ => h w
  all := fun ws _ => by simp only [h]

theorem unwrapped?_of_kind (h : n.kind ≠ .parenthesizedExpression) : n.unwrapped? = some n := by
  rw [unwrapped?_eq, if_neg h]

/-- The envelope of a payload is that of the keys of the object in its parentheses. -/
theorem envelope?_of_unwrapped? {payload : Node} (h : n.IsWrittenOut s)
    (hpayload : payload.unwrapped? = some n) :
    envelope? s (some payload) = envelopeOfKeys (n.objectKeys s).names := by
  simp [envelope?, hpayload, h.kind, plainKinds]

/-- **The error format that is read off an object** follows what it keeps for `error`, else its keys. -/
theorem errorFormatOfKeys_eq [Decidable (n.KeepsObject s "error")] (h : n.IsWrittenOut s) :
    errorFormatOfKeys (n.objectKeys s) =
      if (n.objectKeys s).names.contains "error" then
        some (if n.KeepsObject s "error" then "error-object" else "error-string")
      else if (n.objectKeys s).names.contains "errors" then some "error-object"
      else if (n.objectKeys s).names.contains "message" &&
          (n.objectKeys s).names.all errorKeys.contains then some "message-only"
      else none := by
  have hcontains : (n.objectKeys s).names.contains "error" =
      ((n.objectKeys s).find? (·.1 == "error")).isSome := by
    rw [Bool.eq_iff_iff]
    simp [Keys.names]
  rw [errorFormatOfKeys, hcontains]
  cases hfound : (n.objectKeys s).find? (·.1 == "error") with
  | none => rfl
  | some e =>
    obtain ⟨name, value⟩ := e
    obtain rfl : name = "error" := by simpa using List.find?_some hfound
    have hkeeps := h.find?_objectKeys_iff.1 hfound
    rw [Option.isSome_some, if_pos rfl]
    simp only
    cases hvalue : value.bind Node.unwrapped? with
    | none =>
      rw [if_neg]
      rintro ⟨v, o, hv, ho, -⟩
      rw [hkeeps.unique h hv, Option.bind_some, ho] at hvalue
      cases hvalue
    | some o =>
      obtain ⟨v, rfl, ho⟩ := Option.bind_eq_some_iff.1 hvalue
      refine congrArg some (if_congr ⟨fun hk => ⟨v, o, hkeeps, ho, hk⟩, ?_⟩ rfl rfl)
      rintro ⟨v', o', hv', ho', hk⟩
      obtain rfl := Option.some.inj (hkeeps.unique h hv')
      rwa [Option.some.inj (ho.symm.trans ho')]

/-- **A payload is judged by its keys.** Two objects that are written out and have the same keys make the
same envelope, within any parentheses. If moreover what they keep for `error` is an object in both or in
neither, any two calls that answer with them have the same error format. -/
theorem payload_judged_by_keys (h : n.IsWrittenOut s) (h' : n'.IsWrittenOut s')
    (hkeys : ∀ name, n.HasKey s name ↔ n'.HasKey s' name) :
    (∀ payload payload', payload.unwrapped? = some n → payload'.unwrapped? = some n' →
        envelope? s (some payload) = envelope? s' (some payload')) ∧
      ((n.KeepsObject s "error" ↔ n'.KeepsObject s' "error") → ∀ call call',
        isResponseCall s call = true → isResponseCall s' call' = true →
          call.firstArgument?.bind unwrapped? = some n →
            call'.firstArgument?.bind unwrapped? = some n' →
              errorFormat? s call = errorFormat? s' call') := by
  have hwords : SameWords (n.objectKeys s).names (n'.objectKeys s').names :=
    .of_mem_iff fun name => by rw [h.mem_names_iff, h'.mem_names_iff, hkeys]
  refine ⟨fun payload payload' hp hp' => ?_, fun herror call call' hcall hcall' hp hp' => ?_⟩
  · rw [envelope?_of_unwrapped? h hp, envelope?_of_unwrapped? h' hp',
      envelopeOfKeys_of_sameWords hwords]
  · classical
    rw [errorFormat?, errorFormat?, if_pos hcall, if_pos hcall', hp, hp', objectKeysOf, objectKeysOf,
      errorFormatOfKeys_eq h, errorFormatOfKeys_eq h', hwords.contains (w := "error") (by decide),
      hwords.contains (w := "errors") (by decide), hwords.contains (w := "message") (by decide),
      all_contains_of_sameWords hwords errorKeys (by decide), if_congr herror rfl rfl]

/-- `res.json({error: {code: 1}, message: m})`: the call and its payload. -/
def orderedPayload : Node :=
  ⟨.object, none, ⟨9, 39⟩,
    [⟨.pair, none, ⟨10, 26⟩,
        [⟨.propertyIdentifier, some .key, ⟨10, 15⟩, []⟩,
          ⟨.object, some .value, ⟨17, 26⟩,
            [⟨.pair, none, ⟨18, 25⟩,
              [⟨.propertyIdentifier, some .key, ⟨18, 22⟩, []⟩,
                ⟨.number, some .value, ⟨24, 25⟩, []⟩]⟩]⟩]⟩,
      ⟨.pair, none, ⟨28, 38⟩,
        [⟨.propertyIdentifier, some .key, ⟨28, 35⟩, []⟩,
          ⟨.identifier, some .value, ⟨37, 38⟩, []⟩]⟩]⟩

/-- `res.send({...rest, 'message': m, error, /**/ "error": ({})})`: the payload. -/
def scatteredPayload : Node :=
  ⟨.object, none, ⟨9, 59⟩,
    [⟨.other "spread_element", none, ⟨10, 17⟩, [⟨.identifier, none, ⟨13, 17⟩, []⟩]⟩,
      ⟨.pair, none, ⟨19, 31⟩,
        [⟨.stringLiteral, some .key, ⟨19, 28⟩, []⟩,
          ⟨.identifier, some .value, ⟨30, 31⟩, []⟩]⟩,
      ⟨.shorthandPropertyIdentifier, none, ⟨33, 38⟩, []⟩,
      ⟨.comment, none, ⟨40, 44⟩, []⟩,
      ⟨.pair, none, ⟨45, 58⟩,
        [⟨.stringLiteral, some .key, ⟨45, 52⟩, []⟩,
          ⟨.parenthesizedExpression, some .value, ⟨54, 58⟩, [⟨.object, none, ⟨55, 57⟩, []⟩]⟩]⟩]⟩

/-- A call of a method of `res` with a payload. -/
def answerWith (payload : Node) : Node :=
  ⟨.callExpression, none, ⟨0, payload.span.stop + 1⟩,
    [⟨.memberExpression, some .function, ⟨0, 8⟩,
        [⟨.identifier, some .object, ⟨0, 3⟩, []⟩,
          ⟨.propertyIdentifier, some .property, ⟨4, 8⟩, []⟩]⟩,
      ⟨.arguments, some .arguments, ⟨8, payload.span.stop + 1⟩, [payload]⟩]⟩

/-- The two payloads are written out, have the same keys and keep an object for `error`; so they make the
same envelope, and the calls have the same error format. -/
theorem payload_judged_by_keys_scattered :
    let s : Source := ⟨"res.json(\x7berror: \x7bcode: 1\x7d, message: m\x7d)".toUTF8⟩
    let s' : Source :=
      ⟨"res.send(\x7b...rest, 'message': m, error, /**/ \"error\": (\x7b\x7d)\x7d)".toUTF8⟩
    orderedPayload.IsWrittenOut s ∧ scatteredPayload.IsWrittenOut s' ∧
      (∀ name, orderedPayload.HasKey s name ↔ scatteredPayload.HasKey s' name) ∧
      orderedPayload.KeepsObject s "error" ∧ scatteredPayload.KeepsObject s' "error" ∧
      envelope? s (some orderedPayload) = envelope? s' (some scatteredPayload) ∧
      errorFormat? s (answerWith orderedPayload) = errorFormat? s' (answerWith scatteredPayload) := by
  intro s s'
  have h : orderedPayload.IsWrittenOut s := by
    refine ⟨rfl, ?_⟩
    simp only [orderedPayload, List.forall_mem_cons]
    exact ⟨.pair rfl rfl (.plain rfl), .pair rfl rfl (.plain rfl), fun _ hm => nomatch hm⟩
  have h' : scatteredPayload.IsWrittenOut s' := by
    have hmessage : SpellsName s' ⟨.stringLiteral, some .key, ⟨19, 28⟩, []⟩ "message" :=
      .quoted rfl (.inl rfl) (by decide +kernel)
    have herror : SpellsName s' ⟨.stringLiteral, some .key, ⟨45, 52⟩, []⟩ "error" :=
      .quoted rfl (.inr rfl) (by decide +kernel)
    refine ⟨rfl, ?_⟩
    simp only [scatteredPayload, List.forall_mem_cons]
    exact ⟨.spread rfl, .pair rfl rfl hmessage, .alone rfl, .comment rfl, .pair rfl rfl herror,
      fun _ hm => nomatch hm⟩
  have hnames : (orderedPayload.objectKeys s).names = ["error", "message"] := by decide +kernel
  have hnames' : (scatteredPayload.objectKeys s').names = ["message", "error"] := by decide +kernel
  have hkeys : ∀ name, orderedPayload.HasKey s name ↔ scatteredPayload.HasKey s' name := fun name => by
    rw [← h.mem_names_iff, ← h'.mem_names_iff, hnames, hnames']
    simp [or_comm]
  have herror : orderedPayload.KeepsObject s "error" := by
    refine ⟨_, _, h.find?_objectKeys_iff.1 (by cbv), unwrapped?_of_kind ?_, ?_⟩
    · decide
    · rfl
  have herror' : scatteredPayload.KeepsObject s' "error" := by
    refine ⟨_, ⟨.object, none, ⟨55, 57⟩, []⟩, h'.find?_objectKeys_iff.1 (by cbv), ?_, rfl⟩
    rw [unwrapped?_eq]
    exact unwrapped?_of_kind (by decide)
  have hself : orderedPayload.unwrapped? = some orderedPayload := unwrapped?_of_kind (by decide)
  have hself' : scatteredPayload.unwrapped? = some scatteredPayload := unwrapped?_of_kind (by decide)
  obtain ⟨henvelope, hformat⟩ := payload_judged_by_keys h h' hkeys
  refine ⟨h, h', hkeys, herror, herror', henvelope _ _ hself hself', ?_⟩
  exact hformat (iff_of_true herror herror') _ _ (by cbv) (by cbv) hself hself'

end Node
end Conventions
