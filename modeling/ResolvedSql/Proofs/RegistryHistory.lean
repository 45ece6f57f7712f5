import Mathlib.Data.Finset.Card
import Mathlib.Data.List.Forall2
import ResolvedSql.Function.Body
import ResolvedSql.Proofs.KeyedNames
set_option autoImplicit false

namespace ResolvedSql

namespace Registry

inductive Step where
  | register (name : String) (body : FunctionBody)
  | load (text : String)

namespace Step

def run : Step → EStateM Error Registry Unit
  | .register name body => Registry.register name body
  | .load text => Registry.load text

/-- The entries that a step writes, from first to last. A text writes its members if it is an object
and every member of it is a body; any other text fails. -/
inductive Writes : Step → List (String × FunctionBody) → Prop
  | register (name : String) (body : FunctionBody) : Writes (.register name body) [(name, body)]
  | load {text : String} {members : Json.Members} {entries : List (String × FunctionBody)}
      {inside : Place} (hread : Json.ofText? text = some (.object members))
      (hinside : Place.top.inside? = some inside)
      (hbodies : List.Forall₂ (fun m e => m.1 = e.1 ∧ FunctionBody.decode inside m.2 = some e.2)
        members entries) : Writes (.load text) entries

def Mentions (step : Step) (name : String) : Prop :=
  ∃ entries, step.Writes entries ∧ name ∈ Keyed.names entries

end Step

theorem mapM_eq_some_iff {p : Place} {members : Json.Members}
    {entries : List (String × FunctionBody)} :
    (members.mapM fun (name, j) => (FunctionBody.decode p j).map (name, ·)) = some entries ↔
      List.Forall₂ (fun m e => m.1 = e.1 ∧ FunctionBody.decode p m.2 = some e.2) members
        entries := by
  induction members generalizing entries with
  | nil => simp [eq_comm]
  | cons m members ih =>
    obtain ⟨k, j⟩ := m
    simp only [List.mapM_cons, Option.bind_eq_bind, Option.bind_eq_some_iff,
      Option.map_eq_some_iff, Option.pure_def, Option.some.injEq, List.forall₂_cons_left_iff]
    constructor
    · rintro ⟨e, ⟨body, hbody, rfl⟩, es, hes, rfl⟩
      exact ⟨_, es, ⟨rfl, hbody⟩, ih.1 hes, rfl⟩
    · rintro ⟨⟨k', body⟩, es, ⟨hk, hbody⟩, hes, rfl⟩
      obtain rfl : k = k' := hk
      exact ⟨_, ⟨body, hbody, rfl⟩, es, ih.2 hes, rfl⟩

theorem decodeEntries_eq_some_iff {j : Json} {entries : List (String × FunctionBody)} :
    decodeEntries.ofTree j = some entries ↔
      ∃ members inside, j = .object members ∧ Place.top.inside? = some inside ∧
        List.Forall₂ (fun m e => m.1 = e.1 ∧ FunctionBody.decode inside m.2 = some e.2) members
          entries := by
  cases j with
  | object members =>
    simp only [Decoder.ofTree, decodeEntries, Option.bind_eq_bind, Option.bind_eq_some_iff,
      mapM_eq_some_iff, Json.object.injEq]
    constructor
    · rintro ⟨inside, hinside, h⟩
      exact ⟨members, inside, rfl, hinside, h⟩
    · rintro ⟨members, inside, rfl, hinside, h⟩
      exact ⟨inside, hinside, h⟩
  | _ => simp [Decoder.ofTree, decodeEntries]

namespace Step

theorem load_writes_iff {text : String} {entries : List (String × FunctionBody)} :
    Writes (.load text) entries ↔
      (Json.ofText? text).bind decodeEntries.ofTree = some entries := by
  simp only [Option.bind_eq_some_iff, decodeEntries_eq_some_iff]
  constructor
  · rintro (_ | ⟨hread, hinside, hbodies⟩)
    exact ⟨_, hread, _, _, rfl, hinside, hbodies⟩
  · rintro ⟨_, hread, _, _, rfl, hinside, hbodies⟩
    exact .load hread hinside hbodies

theorem run_of_writes {step : Step} {entries : List (String × FunctionBody)}
    (h : step.Writes entries) (r : Registry) : step.run r = .ok () (r.insertAll entries) := by
  cases step with
  | register name body =>
    cases h
    rfl
  | load text =>
    rw [run, Registry.load, load_writes_iff.1 h]
    rfl

/-- A step that writes nothing fails and leaves the registry as it was. -/
theorem run_of_not_writes {step : Step} (h : ∀ entries, ¬ step.Writes entries) (r : Registry) :
    step.run r = .error .json r := by
  cases step with
  | register name body => exact (h _ (.register name body)).elim
  | load text =>
    rw [run, Registry.load]
    cases hentries : (Json.ofText? text).bind decodeEntries.ofTree with
    | some entries => exact (h entries (load_writes_iff.2 hentries)).elim
    | none => rfl

theorem Writes.unique {step : Step} {es es' : List (String × FunctionBody)} (h : step.Writes es)
    (h' : step.Writes es') : es = es' := by
  cases step with
  | register name body =>
    cases h
    cases h'
    rfl
  | load text =>
    rw [load_writes_iff] at h h'
    exact Option.some.inj (h.symm.trans h')

end Step

/-- The registry that a step leaves, whether it succeeds or fails. -/
def next (r : Registry) (step : Step) : Registry :=
  match step.run r with
  | .ok _ left | .error _ left => left

def after (steps : List Step) : Registry := steps.foldl next ∅

theorem after_concat (steps : List Step) (step : Step) :
    after (steps ++ [step]) = next (after steps) step := by
  simp [after]

theorem exists_entries (step : Step) :
    ∃ entries, (∀ r, next r step = r.insertAll entries) ∧
      (∀ name, step.Mentions name ↔ name ∈ Keyed.names entries) ∧
      ∀ name body, (∃ es, step.Writes es ∧ Keyed.LastEntry es name body) ↔
        Keyed.LastEntry entries name body := by
  by_cases hw : ∃ entries, step.Writes entries
  · obtain ⟨entries, hentries⟩ := hw
    refine ⟨entries, fun r => by rw [next, Step.run_of_writes hentries], fun name => ?_,
      fun name body => ?_⟩
    · exact ⟨fun ⟨_, h, hmem⟩ => hentries.unique h ▸ hmem, fun h => ⟨entries, hentries, h⟩⟩
    · exact ⟨fun ⟨_, h, hlast⟩ => hentries.unique h ▸ hlast, fun h => ⟨entries, hentries, h⟩⟩
  · have hnone (entries : List (String × FunctionBody)) : ¬ step.Writes entries :=
      fun h => hw ⟨entries, h⟩
    refine ⟨[], fun r => by rw [next, Step.run_of_not_writes hnone]; rfl, fun name => ?_,
      fun name body => ?_⟩
    · simp [Step.Mentions, hnone, Keyed.names]
    · simp [hnone, Keyed.LastEntry]

/-- Among the steps that write `name` the last one gives it the body `body`. -/
def LastWritten (steps : List Step) (name : String) (body : FunctionBody) : Prop :=
  ∃ before step later entries, steps = before ++ step :: later ∧ step.Writes entries ∧
    Keyed.LastEntry entries name body ∧ ∀ s ∈ later, ¬ s.Mentions name

theorem lastWritten_concat {steps : List Step} {step : Step} {name : String}
    {body : FunctionBody} :
    LastWritten (steps ++ [step]) name body ↔
      (∃ entries, step.Writes entries ∧ Keyed.LastEntry entries name body) ∨
        (¬ step.Mentions name ∧ LastWritten steps name body) := by
  constructor
  · rintro ⟨before, s, later, entries, hsteps, hwrites, hentry, hlater⟩
    rcases List.eq_nil_or_concat later with rfl | ⟨later, t, rfl⟩
    · obtain ⟨rfl, hs⟩ := List.append_inj' hsteps rfl
      obtain rfl : step = s := by simpa using hs
      exact .inl ⟨entries, hwrites, hentry⟩
    · have hsteps : steps ++ [step] = (before ++ s :: later) ++ [t] := by simpa using hsteps
      obtain ⟨rfl, ht⟩ := List.append_inj' hsteps rfl
      obtain rfl : step = t := by simpa using ht
      refine .inr ⟨hlater step (by simp), before, s, later, entries, rfl, hwrites, hentry, ?_⟩
      exact fun u hu => hlater u (by simp [hu])
  · rintro (⟨entries, hwrites, hentry⟩ | ⟨hstep, before, s, later, entries, rfl, hwrites, hentry,
      hlater⟩)
    · exact ⟨steps, step, [], entries, rfl, hwrites, hentry, by simp⟩
    · refine ⟨before, s, later ++ [step], entries, by simp, hwrites, hentry, fun u hu => ?_⟩
      rcases List.mem_append.1 hu with hu | hu
      · exact hlater u hu
      · obtain rfl := List.mem_singleton.1 hu
        exact hstep

theorem find?_after_eq_some {steps : List Step} {name : String} {body : FunctionBody} :
    (after steps).find? name = some body ↔ LastWritten steps name body := by
  induction steps using List.reverseRecOn with
  | nil =>
    constructor
    · intro h
      cases h
    · rintro ⟨before, step, later, entries, hsteps, -⟩
      simp at hsteps
  | append_singleton steps step ih =>
    obtain ⟨entries, hnext, hmentions, hlast⟩ := exists_entries step
    rw [after_concat, lastWritten_concat, ← ih, hnext, Keyed.find?_insertAll_eq_some, hmentions,
      hlast]

theorem mem_names_after {steps : List Step} {name : String} :
    name ∈ Keyed.names (after steps).entries ↔ ∃ step ∈ steps, step.Mentions name := by
  induction steps using List.reverseRecOn with
  | nil => simp [after, EmptyCollection.emptyCollection, Keyed.empty, Keyed.names]
  | append_singleton steps step ih =>
    have hsplit : (∃ s ∈ steps ++ [step], s.Mentions name) ↔
        step.Mentions name ∨ ∃ s ∈ steps, s.Mentions name := by
      simp [or_and_right, exists_or, or_comm]
    obtain ⟨entries, hnext, hmentions, -⟩ := exists_entries step
    rw [after_concat, hsplit, ← ih, hnext, Keyed.mem_names_insertAll, hmentions]

theorem lastWritten_of_mentions {steps : List Step} {name : String}
    (h : ∃ step ∈ steps, step.Mentions name) : ∃ body, LastWritten steps name body := by
  rw [← mem_names_after] at h
  obtain ⟨⟨k, body⟩, hmem, rfl⟩ := List.mem_map.1 h
  cases hfind : (after steps).find? k with
  | some body => exact ⟨body, find?_after_eq_some.1 hfind⟩
  | none =>
    have hne := List.lookup_eq_none_iff.1 hfind _ hmem
    simp at hne

/-- After any steps a name has the body that was written for it last, and none if none was written.
A step fails exactly if it writes nothing, and then the registry that it leaves is the one it found.
There are as many entries as names were written. -/
theorem after_history (steps : List Step) :
    (∀ name body, (after steps).find? name = some body ↔ LastWritten steps name body) ∧
    (∀ name, (after steps).find? name = none ↔ ∀ step ∈ steps, ¬ step.Mentions name) ∧
    (∀ step : Step, (∃ e left, step.run (after steps) = .error e left) ↔
      ∀ entries, ¬ step.Writes entries) ∧
    (∀ (step : Step) (e : Error) (left : Registry), step.run (after steps) = .error e left →
      e = .json ∧ left = after steps ∧ after (steps ++ [step]) = after steps) ∧
    ∃ written : Finset String, (∀ name, name ∈ written ↔ ∃ step ∈ steps, step.Mentions name) ∧
      (after steps).size = written.card := by
  refine ⟨fun name body => find?_after_eq_some, fun name => ?_, fun step => ?_,
    fun step e left hfails => ?_, ?_⟩
  · constructor
    · intro hnone step hstep hmentions
      obtain ⟨body, hbody⟩ := lastWritten_of_mentions ⟨step, hstep, hmentions⟩
      rw [← find?_after_eq_some, hnone] at hbody
      cases hbody
    · intro hnone
      cases hfind : (after steps).find? name with
      | none => rfl
      | some body =>
        obtain ⟨before, step, later, entries, rfl, hwrites, ⟨front, back, rfl, -⟩, -⟩ :=
          find?_after_eq_some.1 hfind
        exact (hnone step (by simp) ⟨_, hwrites, by simp [Keyed.names]⟩).elim
  · constructor
    · rintro ⟨e, left, hfails⟩ entries hentries
      rw [Step.run_of_writes hentries] at hfails
      cases hfails
    · exact fun h => ⟨.json, _, Step.run_of_not_writes h _⟩
  · have hnone (entries : List (String × FunctionBody)) : ¬ step.Writes entries := by
      intro hentries
      rw [Step.run_of_writes hentries] at hfails
      cases hfails
    have hrun := Step.run_of_not_writes hnone (after steps)
    rw [hrun] at hfails
    cases hfails
    exact ⟨rfl, rfl, by rw [after_concat, next, hrun]⟩
  · refine ⟨(Keyed.names (after steps).entries).toFinset, fun name => ?_, ?_⟩
    · rw [List.mem_toFinset, mem_names_after]
    · rw [List.toFinset_card_of_nodup (after steps).distinct]
      simp [Keyed.size, Keyed.names]

/-- Of two equal keys the second counts, and a text with a member that is no body writes nothing. -/
example : (after [.register "f" ⟨"1"⟩,
    .load "\x7b\"f\":\x7b\"body\":\"2\"\x7d,\"f\":\x7b\"body\":\"3\"\x7d\x7d",
    .load "\x7b\"f\":\x7b\"body\":\"4\"\x7d,\"g\":\x7b\x7d\x7d"]).entries = [("f", ⟨"3"⟩)] := by
  decide +kernel

end Registry
end ResolvedSql
