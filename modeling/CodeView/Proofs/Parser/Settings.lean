import CodeView.Proofs.Parser.Accounting
import CodeView.Proofs.Parser.Modes
import Mathlib.Data.List.Basic
import Mathlib.Data.List.Induction

/-!
# Settings

A parser is made by adjustments, one after the other. Of those that name a kind only the last one
counts, and of those that set the mode only the last one counts, in whatever order they were made
and however often. The adjustment that passes over a kind changes what becomes of the entries of
this kind and nothing else.
-/

namespace CodeView

/-! ## Registries -/

namespace Registry

variable {r : Registry} {kind other : Kind} {decoder : Decoder}

theorem find?_erase :
    (r.erase kind).find? other = if other = kind then none else r.find? other := by
  rw [find?, erase, List.find?_filter]
  split
  case isTrue h =>
    subst h
    simp
  case isFalse h =>
    have hsame : ∀ entry : Kind × Decoder,
        decide ((entry.1 != kind) = true ∧ (entry.1 == other) = true) = (entry.1 == other) := by
      intro entry
      by_cases hentry : entry.1 = other
      · simp [hentry, h]
      · simp [hentry]
    simp only [hsame, find?]

theorem find?_insert :
    (r.insert kind decoder).find? other = if other = kind then some decoder else r.find? other := by
  rw [insert, find?, List.find?_cons]
  split
  case h_1 h => rw [if_pos (eq_of_beq h).symm, Option.map_some]
  case h_2 h =>
    have hother : other ≠ kind := fun heq => (ne_of_beq_false h) heq.symm
    rw [if_neg hother]
    show (r.erase kind).find? other = _
    rw [find?_erase, if_neg hother]

end Registry

/-! ## The last adjustment -/

namespace Setting

/-- Whether the adjustment is about a kind. -/
def names (kind : Kind) : Setting → Bool
  | .strict _ => false
  | .insert named _ => kind == named
  | .erase named => kind == named

/-- The decoder that the adjustment puts in charge. -/
def decoder? : Setting → Option Decoder
  | .insert _ decoder => some decoder
  | _ => none

/-- The mode that the adjustment sets. -/
def mode? : Setting → Option Bool
  | .strict value => some value
  | _ => none

/-- The last of the adjustments about a kind. -/
def lastNaming? (kind : Kind) (settings : List Setting) : Option Setting :=
  settings.reverse.find? (names kind)

/-- The mode that was set last. -/
def lastMode? (settings : List Setting) : Option Bool :=
  settings.reverse.findSome? mode?

end Setting

namespace Parser

open Setting (lastNaming? lastMode?)

variable {p q : Parser} {source : ByteArray} {base : Nat} {kind : Kind}

theorem ofSettings_concat (settings : List Setting) (setting : Setting) :
    ofSettings (settings ++ [setting]) = (ofSettings settings).set setting :=
  List.foldl_append

/-- An adjustment decides about the kind that it names and leaves the others as they are. -/
theorem find?_set (setting : Setting) :
    (p.set setting).registry.find? kind =
      if setting.names kind then setting.decoder? else p.registry.find? kind := by
  cases setting with
  | strict value => rfl
  | insert named decoder =>
    simp only [set, Registry.find?_insert, Setting.names, Setting.decoder?, beq_iff_eq]
  | erase named =>
    simp only [set, Registry.find?_erase, Setting.names, Setting.decoder?, beq_iff_eq]

/-- The last adjustment about a kind tells the decoder in charge of it. -/
theorem find?_ofSettings (settings : List Setting) :
    (ofSettings settings).registry.find? kind =
      (lastNaming? kind settings).elim (Registry.builtin.find? kind) Setting.decoder? := by
  induction settings using List.reverseRecOn with
  | nil => rfl
  | append_singleton settings setting ih =>
    rw [ofSettings_concat, find?_set, ih, lastNaming?, lastNaming?, List.reverse_concat,
      List.find?_cons]
    cases setting.names kind <;> rfl

/-- The last adjustment of the mode tells the mode. -/
theorem strict_ofSettings (settings : List Setting) :
    (ofSettings settings).strict = (lastMode? settings).getD false := by
  induction settings using List.reverseRecOn with
  | nil => rfl
  | append_singleton settings setting ih =>
    rw [ofSettings_concat, lastMode?, List.reverse_concat, List.findSome?_cons]
    cases setting with
    | strict value => rfl
    | insert => exact ih
    | erase => exact ih

/-! ## Parsers with the same decoders -/

theorem outcome_congr {entry : DirectoryEntry}
    (h : q.registry.find? entry.kind = p.registry.find? entry.kind) :
    q.outcome source base entry = p.outcome source base entry := by
  unfold outcome Registry.decode
  rw [h]

/-- Entries are of kinds with a stored tag, so no others need to be looked at. -/
theorem storedOutcomes_congr
    (h : ∀ tag, q.registry.find? (.ofTag tag) = p.registry.find? (.ofTag tag)) :
    q.storedOutcomes source base = p.storedOutcomes source base := by
  unfold storedOutcomes
  refine List.map_congr_left fun i _ => ?_
  rw [outcome_congr (h _)]

theorem parse_congr
    (hregistry : ∀ tag, q.registry.find? (.ofTag tag) = p.registry.find? (.ofTag tag))
    (hstrict : q.strict = p.strict) : q.parse source base = p.parse source base := by
  have hlenient : (q.set (.strict false)).parse source base =
      (p.set (.strict false)).parse source base := by
    have houtcomes : (q.set (.strict false)).storedOutcomes source base =
        (p.set (.strict false)).storedOutcomes source base := storedOutcomes_congr hregistry
    rw [parse_of_lenient_eq_run rfl, parse_of_lenient_eq_run rfl, houtcomes]
  -- the strict result is told from the lenient one, so both modes follow from one
  have hmode : ∀ strict, (q.set (.strict strict)).parse source base =
      (p.set (.strict strict)).parse source base
    | false => hlenient
    | true => by rw [parse_set_strict, parse_set_strict, hlenient]
  have hsame : p.set (.strict q.strict) = p := hstrict ▸ rfl
  have hparse := hmode q.strict
  rwa [hsame] at hparse

end Parser

/-! ## Passing over a kind -/

/-- What is left of a result when a kind is passed over: every entry of the kind is a subsection
without content, at its place in the directory, and all else stays. -/
structure DebugInfo.PassedOver (info info' : DebugInfo) (kind : Kind) (source : ByteArray)
    (position : Nat) : Prop where
  signature : info'.signature = info.signature
  base : info'.base = info.base
  header : info'.header = info.header
  subsectionsInOrder : info'.subsections.Pairwise fun a b => a.index < b.index
  others : info'.subsections.filter (·.entry.kind ≠ kind) =
    info.subsections.filter (·.entry.kind ≠ kind)
  issues : info'.issues = info.issues.filter (·.kind ≠ kind)
  passed : ∀ s : Subsection, s.entry.kind = kind → (s ∈ info'.subsections ↔
    s.record = .unsupported kind ∧ s.index < info.header.entryCount.toNat ∧
      s.entry = Parser.entryAt source position s.index)
  /-- they are at the places where a subsection or an issue of the kind was before -/
  replaced : ∀ i, (∃ s ∈ info'.subsections, s.index = i ∧ s.entry.kind = kind) ↔
    (∃ s ∈ info.subsections, s.index = i ∧ s.entry.kind = kind) ∨
      ∃ issue ∈ info.issues, issue.index = i ∧ issue.kind = kind

/-- The outcome of an entry once a kind is passed over. -/
def passOver (kind : Kind) (outcome : DirectoryEntry × Except FormatError Record) :
    DirectoryEntry × Except FormatError Record :=
  if outcome.1.kind = kind then (outcome.1, .ok (.unsupported kind)) else outcome

namespace DebugInfo

variable {signature : Signature} {base : Nat} {header : DirectoryHeader}
  {outcomes : List (DirectoryEntry × Except FormatError Record)} {kind : Kind}

theorem issues_passOver :
    (ofOutcomes signature base header (outcomes.map (passOver kind))).issues =
      (ofOutcomes signature base header outcomes).issues.filter (·.kind ≠ kind) := by
  simp only [ofOutcomes, List.zipIdx_map, List.filterMap_map, List.filter_filterMap]
  refine List.filterMap_congr ?_
  rintro ⟨⟨entry, outcome⟩, i⟩ -
  by_cases h : entry.kind = kind <;> cases outcome <;>
    simp [passOver, h, Issue.ofOutcome?, Option.filter]

theorem others_passOver :
    (ofOutcomes signature base header (outcomes.map (passOver kind))).subsections.filter
        (·.entry.kind ≠ kind) =
      (ofOutcomes signature base header outcomes).subsections.filter (·.entry.kind ≠ kind) := by
  simp only [ofOutcomes, List.zipIdx_map, List.filterMap_map, List.filter_filterMap]
  refine List.filterMap_congr ?_
  rintro ⟨⟨entry, outcome⟩, i⟩ -
  by_cases h : entry.kind = kind <;> cases outcome <;>
    simp [passOver, h, Subsection.ofOutcome?, Option.filter]

end DebugInfo

namespace Parser

open Setting (lastNaming? lastMode?)

variable {p : Parser} {source : ByteArray} {base : Nat} {kind : Kind}

theorem find?_set_erase_self : (p.set (.erase kind)).registry.find? kind = none := by
  rw [find?_set, Setting.names, beq_self_eq_true]
  rfl

theorem find?_set_erase_of_ne {other : Kind} (h : other ≠ kind) :
    (p.set (.erase kind)).registry.find? other = p.registry.find? other := by
  rw [find?_set, Setting.names, beq_false_of_ne h]
  rfl

/-- Entries of the kind have no content, even where there is no room for any. -/
theorem outcome_set_erase (entry : DirectoryEntry) :
    (entry, (p.set (.erase kind)).outcome source base entry) =
      passOver kind (entry, p.outcome source base entry) := by
  rw [passOver]
  split
  case isTrue h =>
    subst h
    rw [outcome, Registry.decode, find?_set_erase_self]
    rfl
  case isFalse h => rw [outcome_congr (find?_set_erase_of_ne h)]

theorem storedOutcomes_set_erase :
    (p.set (.erase kind)).storedOutcomes source base =
      (p.storedOutcomes source base).map (passOver kind) := by
  rw [storedOutcomes, storedOutcomes, List.map_map]
  exact List.map_congr_left fun i _ => outcome_set_erase _

/-- An entry gives no source module if another decoder is in charge. -/
theorem toOption_bind_sourceModule?_eq_none {entry : DirectoryEntry}
    (h : p.registry.find? entry.kind ≠ some .sourceModule) :
    (p.outcome source base entry).toOption.bind Record.sourceModule? = none := by
  cases houtcome : p.outcome source base entry with
  | error e => rfl
  | ok record =>
    have hdecodes := decodes_of_outcome houtcome
    cases hdecodes with
    | unsupported => rfl
    | decoded hsome _ _ hread =>
      refine Option.eq_none_iff_forall_ne_some.2 fun m hm => ?_
      obtain rfl := Record.sourceModule?_eq_some_iff.1 hm
      exact h (hsome.trans (congrArg some (Decoder.eq_sourceModule_of_read hread)))

/-- No entry of the kind gave a source module, so there are as many as before. -/
theorem sourceModules_passOver {signature : Signature} {header : DirectoryHeader}
    (h : p.registry.find? kind ≠ some .sourceModule) :
    (DebugInfo.ofOutcomes signature base header
        ((p.storedOutcomes source base).map (passOver kind))).sourceModules =
      (DebugInfo.ofOutcomes signature base header (p.storedOutcomes source base)).sourceModules := by
  rw [DebugInfo.sourceModules, DebugInfo.sourceModules, ← storedOutcomes_set_erase,
    filterMap_records, filterMap_records]
  refine List.filterMap_congr fun i _ => ?_
  by_cases hkind : (entryAt source base i).kind = kind
  · subst hkind
    have hnone : (p.set (.erase (entryAt source base i).kind)).registry.find?
        (entryAt source base i).kind ≠ some .sourceModule := by
      rw [find?_set_erase_self]
      exact (Option.some_ne_none _).symm
    rw [toOption_bind_sourceModule?_eq_none hnone, toOption_bind_sourceModule?_eq_none h]
  · rw [outcome_congr (find?_set_erase_of_ne hkind)]

/-- The frame is that of before, and the outcomes are changed entry by entry. -/
theorem parse_set_erase (kind : Kind) (hp : p.strict = false) {info : DebugInfo}
    (h : p.parse source base = .ok info) :
    ∃ signature header,
      info = DebugInfo.ofOutcomes signature base header (p.storedOutcomes source base) ∧
      (p.set (.erase kind)).parse source base = .ok (DebugInfo.ofOutcomes signature base header
        ((p.storedOutcomes source base).map (passOver kind))) := by
  rw [parse_of_lenient_eq_run hp, Check.run_eq_ok] at h
  refine ⟨_, _, h.2, ?_⟩
  rw [parse_of_lenient_eq_run (p := p.set (.erase kind)) hp, storedOutcomes_set_erase]
  exact Check.run_eq_ok.2 ⟨h.1, rfl⟩

/-- Where a kind is passed over, the subsections of the kind are the entries of the kind. -/
theorem mem_subsections_set_erase (hp : p.strict = false) {info' : DebugInfo}
    (h : (p.set (.erase kind)).parse source base = .ok info') {s : Subsection}
    (hs : s.entry.kind = kind) :
    s ∈ info'.subsections ↔ s.record = .unsupported kind ∧
      s.index < info'.header.entryCount.toNat ∧ s.entry = entryAt source base s.index := by
  have hp' : (p.set (.erase kind)).strict = false := hp
  have haccounts := accounts_of_parse hp' h
  constructor
  · intro hmem
    have hrecord := (haccounts.unsupported s hmem).2 (hs.symm ▸ find?_set_erase_self)
    exact ⟨hs ▸ hrecord, (haccounts.complete _).1 (.inl ⟨s, hmem, rfl⟩), haccounts.entry s hmem⟩
  · rintro ⟨hrecord, hi, hentry⟩
    obtain ⟨signature, rfl⟩ := eq_ofOutcomes_of_parse hp' h
    rw [DebugInfo.mem_subsections_ofOutcomes, getElem?_storedOutcomes_of_lt hi, outcome_set_erase,
      ← hentry, passOver, if_pos hs, hrecord]

/-- A lenient parser that passes over one kind more changes the entries of this kind only. Where
no source module was decoded from them, every question is answered as before. -/
theorem passedOver_of_parse (hp : p.strict = false) {info : DebugInfo}
    (h : p.parse source base = .ok info) :
    ∃ info', (p.set (.erase kind)).parse source base = .ok info' ∧
      info.PassedOver info' kind source base ∧
      (p.registry.find? kind ≠ some .sourceModule → info'.resolver = info.resolver) := by
  obtain ⟨signature, header, rfl, hparse⟩ := parse_set_erase kind hp h
  have haccounts := accounts_of_parse hp h
  have haccounts' := accounts_of_parse (p := p.set (.erase kind)) hp hparse
  refine ⟨_, hparse, ?_, fun hdecoder => ?_⟩
  · constructor
    case signature => simp only [DebugInfo.signature_ofOutcomes]
    case base => simp only [DebugInfo.base_ofOutcomes]
    case header => simp only [DebugInfo.header_ofOutcomes]
    case subsectionsInOrder => exact haccounts'.subsectionsInOrder
    case others => exact DebugInfo.others_passOver
    case issues => exact DebugInfo.issues_passOver
    case passed => exact fun s hs => mem_subsections_set_erase hp hparse hs
    case replaced =>
      intro i
      have hissue : ¬∃ issue ∈ (DebugInfo.ofOutcomes signature base header
          ((p.storedOutcomes source base).map (passOver kind))).issues,
          issue.index = i ∧ issue.kind = kind := by
        rintro ⟨issue, hmem, -, hkind⟩
        rw [DebugInfo.issues_passOver, List.mem_filter] at hmem
        exact of_decide_eq_true hmem.2 hkind
      exact (or_iff_left hissue).symm.trans
        (haccounts'.exists_kind_iff.trans haccounts.exists_kind_iff.symm)
  · rw [DebugInfo.resolver, DebugInfo.resolver, sourceModules_passOver hdecoder]

/-- **Settings act kind by kind.** Two lists of settings make parsers with the same results if for
every tag the last setting that names its kind is the same in both, and the mode that was set last
is. And one setting more, which passes over a kind, changes in every lenient result the entries of
this kind and nothing else. -/
theorem parse_ofSettings :
    (∀ settings settings' : List Setting,
      (∀ tag, lastNaming? (.ofTag tag) settings' = lastNaming? (.ofTag tag) settings) →
        lastMode? settings' = lastMode? settings →
          ∀ source base, (ofSettings settings').parse source base =
            (ofSettings settings).parse source base) ∧
    ∀ settings : List Setting, (ofSettings settings).strict = false →
      ∀ tag source base info, (ofSettings settings).parse source base = .ok info →
        ∃ info', (ofSettings (settings ++ [.erase (.ofTag tag)])).parse source base = .ok info' ∧
          info.PassedOver info' (.ofTag tag) source base ∧
          ((ofSettings settings).registry.find? (.ofTag tag) ≠ some .sourceModule →
            info'.resolver = info.resolver) := by
  constructor
  · intro settings settings' hnaming hmode source base
    refine parse_congr (fun tag => ?_) ?_
    · rw [find?_ofSettings, find?_ofSettings, hnaming]
    · rw [strict_ofSettings, strict_ofSettings, hmode]
  · intro settings hp tag source base info h
    rw [ofSettings_concat]
    exact passedOver_of_parse hp h

/-- Edits of a decoder that is taken away in the end, in between settings of the mode. -/
def editedLibraries : List Setting :=
  [.erase .libraries, .strict true, .insert .types .libraries, .insert .libraries .fileIndex,
    .strict false, .erase .libraries, .erase .types]

theorem parse_ofSettings_mixedBlob :
    (∀ source base, (ofSettings editedLibraries).parse source base =
      (ofSettings [.erase .types, .erase .libraries, .strict false]).parse source base) ∧
    ∃ info info', (ofSettings editedLibraries).parse mixedBlob 0 = .ok info ∧
      info.issues = [⟨2, .globalSymbols, 0xffff, .outOfBounds 60 2 60⟩] ∧
      (ofSettings (editedLibraries ++ [.erase (.ofTag 0x129)])).parse mixedBlob 0 = .ok info' ∧
      info'.issues = [] ∧
      ⟨2, ⟨.globalSymbols, 0xffff, 60, 0⟩, .unsupported .globalSymbols⟩ ∈ info'.subsections := by
  have hnaming : ∀ kind, lastNaming? kind editedLibraries =
      lastNaming? kind [.erase .types, .erase .libraries, .strict false] := by
    intro kind
    by_cases htypes : kind = .types
    · subst htypes
      rfl
    by_cases hlibraries : kind = .libraries
    · subst hlibraries
      rfl
    simp [lastNaming?, editedLibraries, Setting.names, htypes, hlibraries]
  let info : DebugInfo := ⟨.nb09, 0, ⟨16, 12, 3, 0, 0⟩,
    [⟨0, ⟨.libraries, 0xffff, 60, 3⟩, .unsupported .libraries⟩,
      ⟨1, ⟨.types, 1, 999, 5⟩, .unsupported .types⟩],
    [⟨2, .globalSymbols, 0xffff, .outOfBounds 60 2 60⟩]⟩
  have run : (ofSettings editedLibraries).parse mixedBlob 0 = .ok info := rfl
  obtain ⟨info', run', hpassed, -⟩ := parse_ofSettings.2 _ rfl 0x129 _ _ _ run
  refine ⟨fun source base => parse_ofSettings.1 _ _ (fun _ => hnaming _) rfl source base, info,
    info', run, rfl, run', hpassed.issues, ?_⟩
  exact (hpassed.passed _ rfl).2 ⟨rfl, by decide, rfl⟩

end Parser

end CodeView
