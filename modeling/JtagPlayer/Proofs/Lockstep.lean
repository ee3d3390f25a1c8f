import JtagPlayer.Proofs.Course

/-!
# Two dialogues in lockstep

Two runs are compared call by call. `Terms` says what their surroundings have in common: the bus
always, apart from the levels it returns unless these are the same too, and the clock if both read
the same one. Calls on what is in common are shared. `Lockstep` says of two dialogues that they make
the same shared calls as long as the answers match, whatever they do besides, and that their results
agree. A dialogue that stops for want of an instant is lost: with clocks of their own, one may be
while the other goes on.

`Lockstep.play` holds both on benches of their own. A `Coupling` of the benches is kept by every
shared call whose answers match, so the two transcripts are alike to the end, or up to a call at
which the coupling breaks.
-/

namespace JtagPlayer

/-- What the surroundings of two runs have in common besides the bus. -/
structure Terms where
  /-- Looks at the clock give the same readings. -/
  sameClock : Bool
  /-- Samples give the same levels. -/
  sameLevels : Bool

namespace Terms

/-- Both runs make the call, or neither. -/
def Shares (terms : Terms) : Call → Prop
  | .acquire | .write _ _ | .read _ | .release => True
  | .now | .wait _ _ => terms.sameClock = true
  | .note _ => False

instance (terms : Terms) : DecidablePred terms.Shares
  | .acquire | .write _ _ | .read _ | .release => .isTrue trivial
  | .now | .wait _ _ => inferInstanceAs (Decidable (terms.sameClock = true))
  | .note _ => .isFalse id

/-- What concerns the bus is always shared. -/
theorem isQuiet_of_not_shares {terms : Terms} {c : Call} (h : ¬ terms.Shares c) : c.IsQuiet := by
  cases c with
  | acquire | write | read | release => exact absurd trivial h
  | now | wait | note => trivial

/-- What does not is shared with the clock. -/
theorem sameClock_of_isQuiet {terms : Terms} {c : Call} (h : terms.Shares c) (hquiet : c.IsQuiet) :
    terms.sameClock = true := by
  cases c with
  | acquire | write | read | release => exact hquiet.elim
  | now | wait => exact h
  | note => exact h.elim

/-- Two answers to a call after which the runs stay together. -/
def Matches (terms : Terms) : (c : Call) → c.Answer → c.Answer → Prop
  | .read _, .ok level, .ok level' => terms.sameLevels = true → level = level'
  | _, answer, answer' => answer = answer'

variable {terms : Terms}

theorem matches_self (c : Call) (answer : c.Answer) : terms.Matches c answer answer := by
  unfold Matches
  split
  · exact fun _ => rfl
  · rfl

theorem eq_of_matches (hlevels : terms.sameLevels = true) {c : Call} {answer answer' : c.Answer}
    (h : terms.Matches c answer answer') : answer = answer' := by
  unfold Matches at h
  split at h
  · exact congrArg _ (h hlevels)
  · exact h

/-- If both answers are successes, only the levels of samples and the readings of clocks can
differ. -/
theorem matches_of_succeeds {c : Call} {answer answer' : c.Answer}
    (h : Exchange.Succeeds ⟨c, answer⟩) (h' : Exchange.Succeeds ⟨c, answer'⟩)
    (hlevels : ∀ line, c = .read line → terms.sameLevels = false) (hnow : c ≠ .now) :
    terms.Matches c answer answer' := by
  cases c with
  | acquire | write =>
    cases answer with
    | error error => exact h.elim
    | ok =>
      cases answer' with
      | error error => exact h'.elim
      | ok => rfl
  | read line =>
    cases answer with
    | error error => exact h.elim
    | ok level =>
      cases answer' with
      | error error => exact h'.elim
      | ok level' =>
        intro hsame
        rw [hlevels line rfl] at hsame
        cases hsame
  | now => exact absurd rfl hnow
  | release | wait | note => rfl

/-- Two courses of events make the same shared calls and are given matching answers. -/
inductive Alike (terms : Terms) : List Exchange → List Exchange → Prop where
  | nil : Alike terms [] []
  | both {c : Call} {answer answer' : c.Answer} {rest rest' : List Exchange}
      (hshares : terms.Shares c) (hmatches : terms.Matches c answer answer')
      (h : Alike terms rest rest') : Alike terms (⟨c, answer⟩ :: rest) (⟨c, answer'⟩ :: rest')
  | first {exchange : Exchange} {rest exchanges' : List Exchange}
      (hshares : ¬ terms.Shares exchange.call) (h : Alike terms rest exchanges') :
      Alike terms (exchange :: rest) exchanges'
  | second {exchange : Exchange} {exchanges rest' : List Exchange}
      (hshares : ¬ terms.Shares exchange.call) (h : Alike terms exchanges rest') :
      Alike terms exchanges (exchange :: rest')

/-- The shared part of a course of events. -/
def shared (terms : Terms) (exchanges : List Exchange) : List Exchange :=
  exchanges.filter fun exchange => terms.Shares exchange.call

theorem shared_cons_of_shares {exchange : Exchange} (h : terms.Shares exchange.call)
    (rest : List Exchange) :
    terms.shared (exchange :: rest) = exchange :: terms.shared rest :=
  List.filter_cons_of_pos (by simpa using h)

theorem shared_cons_of_not_shares {exchange : Exchange} (h : ¬ terms.Shares exchange.call)
    (rest : List Exchange) : terms.shared (exchange :: rest) = terms.shared rest :=
  List.filter_cons_of_neg (by simpa using h)

theorem Alike.calls {exchanges exchanges' : List Exchange}
    (h : terms.Alike exchanges exchanges') :
    (terms.shared exchanges).map Exchange.call = (terms.shared exchanges').map Exchange.call := by
  induction h with
  | nil => rfl
  | both hshares hmatches h ih =>
    rw [shared_cons_of_shares hshares, shared_cons_of_shares hshares, List.map_cons, List.map_cons,
      ih]
  | first hshares h ih => rw [shared_cons_of_not_shares hshares, ih]
  | second hshares h ih => rw [shared_cons_of_not_shares hshares, ih]

theorem Alike.shared_eq (hlevels : terms.sameLevels = true) {exchanges exchanges' : List Exchange}
    (h : terms.Alike exchanges exchanges') : terms.shared exchanges = terms.shared exchanges' := by
  induction h with
  | nil => rfl
  | both hshares hmatches h ih =>
    rw [shared_cons_of_shares hshares, shared_cons_of_shares hshares, ih,
      eq_of_matches hlevels hmatches]
  | first hshares h ih => rw [shared_cons_of_not_shares hshares, ih]
  | second hshares h ih => rw [shared_cons_of_not_shares hshares, ih]

end Terms

instance : DecidablePred Call.IsQuiet
  | .acquire | .write _ _ | .read _ | .release => .isFalse id
  | .now | .wait _ _ | .note _ => .isTrue trivial

/-- The part of a course of events that concerns the bus. -/
def onBus (exchanges : List Exchange) : List Exchange :=
  exchanges.filter fun exchange => ¬ exchange.call.IsQuiet

@[simp] theorem onBus_append (first second : List Exchange) :
    onBus (first ++ second) = onBus first ++ onBus second :=
  List.filter_append ..

theorem onBus_cons {c : Call} {answer : c.Answer} (h : ¬ c.IsQuiet) (rest : List Exchange) :
    onBus (⟨c, answer⟩ :: rest) = ⟨c, answer⟩ :: onBus rest :=
  List.filter_cons_of_pos (by simpa using h)

/-- All of it is shared. -/
theorem onBus_shared {terms : Terms} (exchanges : List Exchange) :
    onBus (terms.shared exchanges) = onBus exchanges := by
  rw [onBus, onBus, Terms.shared, List.filter_filter]
  refine List.filter_congr fun exchange _ => ?_
  by_cases hshares : terms.Shares exchange.call
  · simp [hshares]
  · simp [hshares, Terms.isQuiet_of_not_shares hshares]

namespace Terms

variable {terms : Terms} {exchanges exchanges' : List Exchange}

theorem Alike.calls_onBus (h : terms.Alike exchanges exchanges') :
    (onBus exchanges).map Exchange.call = (onBus exchanges').map Exchange.call := by
  have honBus : ∀ exchanges : List Exchange, (onBus exchanges).map Exchange.call =
      ((terms.shared exchanges).map Exchange.call).filter fun c => ¬ c.IsQuiet := by
    intro exchanges
    rw [← @onBus_shared terms, List.filter_map]
    rfl
  rw [honBus, honBus, h.calls]

/-- What differs cannot fail. -/
theorem Alike.flawless (hlevels : terms.sameLevels = true) (h : terms.Alike exchanges exchanges')
    (hflawless : Flawless exchanges) : Flawless exchanges' := by
  induction h with
  | nil => exact flawless_nil
  | both hshares hmatches h ih =>
    obtain rfl := eq_of_matches hlevels hmatches
    obtain ⟨hfirst, hrest⟩ := flawless_cons.mp hflawless
    exact flawless_cons.mpr ⟨hfirst, ih hrest⟩
  | first hshares h ih => exact ih (flawless_cons.mp hflawless).2
  | second hshares h ih =>
    exact flawless_cons.mpr ⟨Exchange.succeeds_of_isQuiet (isQuiet_of_not_shares hshares),
      ih hflawless⟩

theorem Alike.onBus_eq (hlevels : terms.sameLevels = true) (h : terms.Alike exchanges exchanges') :
    onBus exchanges = onBus exchanges' := by
  rw [← @onBus_shared terms, ← @onBus_shared terms exchanges',
    h.shared_eq hlevels]

end Terms

/-- Two dialogues that make the same shared calls as long as the answers match, and whose results
agree then, unless one of them is lost on the way. -/
inductive Lockstep {α : Type} (terms : Terms) (Agrees : α → α → Prop) (Lost : α → Prop) :
    Dialogue α → Dialogue α → Prop where
  | done {result result' : α} (h : Agrees result result') :
      Lockstep terms Agrees Lost (.done result) (.done result')
  | both {c : Call} {next next' : c.Answer → Dialogue α} (hshares : terms.Shares c)
      (h : ∀ answer answer', terms.Matches c answer answer' →
        Lockstep terms Agrees Lost (next answer) (next' answer')) :
      Lockstep terms Agrees Lost (.call c next) (.call c next')
  | first {c : Call} {next : c.Answer → Dialogue α} {dialogue' : Dialogue α}
      (hshares : ¬ terms.Shares c)
      (h : ∀ answer, Lockstep terms Agrees Lost (next answer) dialogue') :
      Lockstep terms Agrees Lost (.call c next) dialogue'
  | second {c : Call} {dialogue : Dialogue α} {next' : c.Answer → Dialogue α}
      (hshares : ¬ terms.Shares c)
      (h : ∀ answer, Lockstep terms Agrees Lost dialogue (next' answer)) :
      Lockstep terms Agrees Lost dialogue (.call c next')
  | firstLost {result : α} {dialogue' : Dialogue α} (h : Lost result) :
      Lockstep terms Agrees Lost (.done result) dialogue'
  | secondLost {dialogue : Dialogue α} {result' : α} (h : Lost result') :
      Lockstep terms Agrees Lost dialogue (.done result')

namespace Lockstep

variable {α γ : Type} {terms : Terms} {Agrees : α → α → Prop} {Lost : α → Prop}

/-- Dialogues in lockstep go on in lockstep if they do so after agreeing results. A lost dialogue
has to stay lost. -/
theorem bind {Agrees' : γ → γ → Prop} {Lost' : γ → Prop} {dialogue dialogue' : Dialogue α}
    {f f' : α → Dialogue γ} (h : Lockstep terms Agrees Lost dialogue dialogue')
    (hgoesOn : ∀ result result', Agrees result result' →
      Lockstep terms Agrees' Lost' (f result) (f' result'))
    (hlost : ∀ result, Lost result → ∃ other, f result = .done other ∧ Lost' other)
    (hlost' : ∀ result, Lost result → ∃ other, f' result = .done other ∧ Lost' other) :
    Lockstep terms Agrees' Lost' (dialogue.bind f) (dialogue'.bind f') := by
  induction h with
  | done h => exact hgoesOn _ _ h
  | both hshares h ih => exact .both hshares ih
  | first hshares h ih => exact .first hshares ih
  | second hshares h ih => exact .second hshares ih
  | firstLost h =>
    obtain ⟨other, heq, hother⟩ := hlost _ h
    rw [Dialogue.bind_done, heq]
    exact .firstLost hother
  | secondLost h =>
    obtain ⟨other, heq, hother⟩ := hlost' _ h
    rw [Dialogue.bind_done, heq]
    exact .secondLost hother

/-- What the first dialogue brings about in any case may be added to what the results agree in. -/
theorem imp_course {Agrees' : α → α → Prop} {dialogue dialogue' : Dialogue α}
    (h : Lockstep terms Agrees Lost dialogue dialogue')
    (himp : ∀ exchanges result result', dialogue.Course exchanges result →
      Agrees result result' → Agrees' result result') :
    Lockstep terms Agrees' Lost dialogue dialogue' := by
  induction h with
  | done h => exact .done (himp [] _ _ (.done _) h)
  | both hshares h ih =>
    exact .both hshares fun answer answer' hmatches =>
      ih answer answer' hmatches fun exchanges result result' hcourse =>
        himp (_ :: exchanges) result result' (.call hcourse)
  | first hshares h ih =>
    exact .first hshares fun answer => ih answer fun exchanges result result' hcourse =>
      himp (_ :: exchanges) result result' (.call hcourse)
  | second hshares h ih => exact .second hshares fun answer => ih answer himp
  | firstLost h => exact .firstLost h
  | secondLost h => exact .secondLost h

end Lockstep

namespace Bench

variable {β β' τ τ' : Type} [Bus β] [Bus β'] [Clock τ] [Clock τ'] {terms : Terms}

/-- A quiet call leaves the bus alone. -/
theorem bus_answer {bench : Bench β τ} {c : Call} (h : c.IsQuiet) :
    (bench.answer c).2.bus = bench.bus := by
  cases c with
  | acquire | write | read | release => exact h.elim
  | now | wait | note => rfl

/-- A call moves equal clocks on alike. -/
theorem clock_answer {bench : Bench β τ} {bench' : Bench β' τ} (h : bench.clock = bench'.clock)
    (c : Call) : (bench.answer c).2.clock = (bench'.answer c).2.clock := by
  cases c <;> simp only [answer, h]

/-- What two runs on the same clock do not share takes no time. -/
theorem clock_answer_of_not_shares {bench : Bench β τ} {c : Call} (hclock : terms.sameClock = true)
    (h : ¬ terms.Shares c) : (bench.answer c).2.clock = bench.clock := by
  cases c with
  | acquire | write | read | release => exact absurd trivial h
  | now | wait => exact absurd hclock h
  | note => rfl

/-- The same clock gives the same readings. -/
theorem matches_of_isQuiet {bench : Bench β τ} {bench' : Bench β' τ}
    (h : bench.clock = bench'.clock) {c : Call} (hquiet : c.IsQuiet) :
    terms.Matches c (bench.answer c).1 (bench'.answer c).1 := by
  cases c with
  | acquire | write | read | release => exact hquiet.elim
  | now => exact congrArg Clock.now h
  | wait | note => rfl

end Bench

/-- A relation between two benches after some shared exchanges on the first. A shared call keeps it
and is given matching answers, or breaks it; the other calls keep it on either side. -/
structure Coupling (terms : Terms) (β β' τ τ' : Type) [Bus β] [Bus β'] [Clock τ] [Clock τ'] where
  Holds : List Exchange → Bench β τ → Bench β' τ' → Prop
  Breaks : Call → Bench β τ → Bench β' τ' → Prop
  both : ∀ {met bench bench' c}, Holds met bench bench' → terms.Shares c →
    Breaks c bench bench' ∨
      terms.Matches c (bench.answer c).1 (bench'.answer c).1 ∧
        Holds (met ++ [⟨c, (bench.answer c).1⟩]) (bench.answer c).2 (bench'.answer c).2
  first : ∀ {met bench bench' c}, Holds met bench bench' → ¬ terms.Shares c →
    Holds met (bench.answer c).2 bench'
  second : ∀ {met bench bench' c}, Holds met bench bench' → ¬ terms.Shares c →
    Holds met bench (bench'.answer c).2

variable {α β β' τ τ' : Type} [Bus β] [Bus β'] [Clock τ] [Clock τ'] {terms : Terms}

/-- How two dialogues get on that began on coupled benches after the exchanges `met`: they stay
together to the end, or part at a call that breaks the coupling, or one of them is lost. -/
inductive Meeting (coupling : Coupling terms β β' τ τ') (Agrees : α → α → Prop) (Lost : α → Prop)
    (met : List Exchange) :
    List Exchange → List Exchange → α × Bench β τ → α × Bench β' τ' → Prop where
  | together {exchanges exchanges' played played'} (hagrees : Agrees played.1 played'.1)
      (halike : terms.Alike exchanges exchanges')
      (hholds : coupling.Holds (met ++ terms.shared exchanges) played.2 played'.2) :
      Meeting coupling Agrees Lost met exchanges exchanges' played played'
  | parted {before before' rest rest' c played played'} {bench : Bench β τ} {bench' : Bench β' τ'}
      (halike : terms.Alike before before')
      (hholds : coupling.Holds (met ++ terms.shared before) bench bench')
      (hshares : terms.Shares c) (hbreaks : coupling.Breaks c bench bench') :
      Meeting coupling Agrees Lost met (before ++ ⟨c, (bench.answer c).1⟩ :: rest)
        (before' ++ ⟨c, (bench'.answer c).1⟩ :: rest') played played'
  | lost {exchanges exchanges' played played'} (h : Lost played.1 ∨ Lost played'.1) :
      Meeting coupling Agrees Lost met exchanges exchanges' played played'

variable {coupling : Coupling terms β β' τ τ'} {Agrees : α → α → Prop} {Lost : α → Prop}
  {met exchanges exchanges' : List Exchange} {played : α × Bench β τ} {played' : α × Bench β' τ'}

/-- Two dialogues neither of which is lost stay together, or part at a certain call. -/
theorem Meeting.together_or_parted
    (h : Meeting coupling Agrees Lost met exchanges exchanges' played played')
    (hkept : ¬ Lost played.1) (hkept' : ¬ Lost played'.1) :
    (Agrees played.1 played'.1 ∧ terms.Alike exchanges exchanges' ∧
      coupling.Holds (met ++ terms.shared exchanges) played.2 played'.2) ∨
    ∃ before before' rest rest' c bench bench',
      exchanges = before ++ ⟨c, (bench.answer c).1⟩ :: rest ∧
      exchanges' = before' ++ ⟨c, (bench'.answer c).1⟩ :: rest' ∧ terms.Alike before before' ∧
      coupling.Holds (met ++ terms.shared before) bench bench' ∧
      coupling.Breaks c bench bench' := by
  cases h with
  | together hagrees halike hholds => exact .inl ⟨hagrees, halike, hholds⟩
  | parted halike hholds hshares hbreaks =>
    exact .inr ⟨_, _, _, _, _, _, _, rfl, rfl, halike, hholds, hbreaks⟩
  | lost h => exact absurd h (not_or.mpr ⟨hkept, hkept'⟩)

theorem Meeting.both {c : Call} {answer answer' : c.Answer} (hshares : terms.Shares c)
    (hmatches : terms.Matches c answer answer')
    (h : Meeting coupling Agrees Lost (met ++ [⟨c, answer⟩]) exchanges exchanges' played played') :
    Meeting coupling Agrees Lost met (⟨c, answer⟩ :: exchanges) (⟨c, answer'⟩ :: exchanges') played
      played' := by
  have hmet : ∀ exchanges, met ++ [⟨c, answer⟩] ++ terms.shared exchanges =
      met ++ terms.shared (⟨c, answer⟩ :: exchanges) := fun exchanges => by
    rw [Terms.shared_cons_of_shares hshares, List.append_assoc, List.singleton_append]
  cases h with
  | together hagrees halike hholds =>
    exact .together hagrees (.both hshares hmatches halike) (hmet _ ▸ hholds)
  | parted halike hholds hshares' hbreaks =>
    exact .parted (.both hshares hmatches halike) (hmet _ ▸ hholds) hshares' hbreaks
  | lost h => exact .lost h

theorem Meeting.first {exchange : Exchange} (hshares : ¬ terms.Shares exchange.call)
    (h : Meeting coupling Agrees Lost met exchanges exchanges' played played') :
    Meeting coupling Agrees Lost met (exchange :: exchanges) exchanges' played played' := by
  have hmet : ∀ exchanges, terms.shared exchanges = terms.shared (exchange :: exchanges) :=
    fun exchanges => (Terms.shared_cons_of_not_shares hshares exchanges).symm
  cases h with
  | together hagrees halike hholds =>
    exact .together hagrees (.first hshares halike) (hmet _ ▸ hholds)
  | parted halike hholds hshares' hbreaks =>
    exact .parted (.first hshares halike) (hmet _ ▸ hholds) hshares' hbreaks
  | lost h => exact .lost h

theorem Meeting.second {exchange : Exchange} (hshares : ¬ terms.Shares exchange.call)
    (h : Meeting coupling Agrees Lost met exchanges exchanges' played played') :
    Meeting coupling Agrees Lost met exchanges (exchange :: exchanges') played played' := by
  cases h with
  | together hagrees halike hholds => exact .together hagrees (.second hshares halike) hholds
  | parted halike hholds hshares' hbreaks =>
    exact .parted (.second hshares halike) hholds hshares' hbreaks
  | lost h => exact .lost h

/-- Dialogues in lockstep on coupled benches. -/
theorem Lockstep.play {dialogue dialogue' : Dialogue α}
    (h : Lockstep terms Agrees Lost dialogue dialogue') {bench : Bench β τ} {bench' : Bench β' τ'}
    (hholds : coupling.Holds met bench bench') :
    Meeting coupling Agrees Lost met (dialogue.transcript bench) (dialogue'.transcript bench')
      (dialogue.play bench) (dialogue'.play bench') := by
  induction h generalizing met bench bench' with
  | done h => exact .together h .nil (by simpa [Terms.shared, Dialogue.transcript] using hholds)
  | @both c next next' hshares h ih =>
    rcases coupling.both hholds hshares with hbreaks | ⟨hmatches, hholds'⟩
    · show Meeting coupling Agrees Lost met ([] ++ ⟨c, _⟩ :: _) ([] ++ ⟨c, _⟩ :: _) _ _
      exact .parted .nil (by simpa [Terms.shared] using hholds) hshares hbreaks
    · exact .both hshares hmatches (ih _ _ hmatches hholds')
  | first hshares h ih => exact .first hshares (ih _ (coupling.first hholds hshares))
  | second hshares h ih => exact .second hshares (ih _ (coupling.second hholds hshares))
  | firstLost h => exact .lost (.inl h)
  | secondLost h => exact .lost (.inr h)

end JtagPlayer
