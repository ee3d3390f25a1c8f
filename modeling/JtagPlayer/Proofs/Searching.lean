import JtagPlayer.Tap.Route
import Mathlib.Data.List.Nodup
import Mathlib.Data.List.Perm.Subperm

/-!
# Canonical routes come first among all walks

A breadth-first search meets the states in the order of the words that lead to them: by length, and
low before high among words of the same length. `Frontier.rank` numbers the words in that order, so
that comparing words is comparing numbers.

`Frontier.Explores` is what every step of a search keeps: the states were met in the order of their
words, and whatever an expanded state leads to was met by a word that comes no later. So a walk to
the target that is still ahead goes through a state that waits in the queue, and the search ends
with the first of all words that lead to its target. `Frontier.search_first` says so of every
search, and `TapState.routes_first` of the routes in the table, whatever walk they are compared
with.
-/

namespace JtagPlayer

namespace Frontier

/-- The number of a word whose levels are given latest first: its levels in the order in which they
are sent, read as binary digits behind a leading one. -/
def rank : List Bool → Nat
  | [] => 1
  | tms :: word => 2 * rank word + tms.toNat

theorem one_le_rank (word : List Bool) : 1 ≤ rank word := by
  induction word with
  | nil => exact Nat.le_refl 1
  | cons tms word ih =>
    rw [rank]
    omega

/-- Going on in the same way keeps the order of two words. -/
theorem rank_append_le {first second : List Bool} (h : rank first ≤ rank second)
    (later : List Bool) : rank (later ++ first) ≤ rank (later ++ second) := by
  induction later with
  | nil => exact h
  | cons tms later ih =>
    simp only [List.cons_append, rank]
    omega

theorem rank_le_append (later word : List Bool) : rank word ≤ rank (later ++ word) := by
  induction later with
  | nil => exact Nat.le_refl _
  | cons tms later ih =>
    rw [List.cons_append, rank]
    omega

/-- Whatever follows, the word that was before the other one remains so. -/
theorem rank_append_lt {first second : List Bool} (h : rank first < rank second)
    {later other : List Bool} (hlength : later.length = other.length) :
    rank (later ++ first) < rank (other ++ second) := by
  induction later generalizing other with
  | nil =>
    rw [List.eq_nil_of_length_eq_zero hlength.symm]
    exact h
  | cons tms later ih =>
    cases other with
    | nil => cases hlength
    | cons level other =>
      have hlater := ih (Nat.succ.inj hlength)
      have htms := tms.toNat_le
      simp only [List.cons_append, rank]
      omega

/-- A longer word has a greater number. -/
theorem rank_lt_of_length_lt {first second : List Bool} (h : second.length < first.length) :
    rank second < rank first := by
  induction first generalizing second with
  | nil => exact absurd h (Nat.not_lt_zero _)
  | cons tms first ih =>
    rw [rank]
    cases second with
    | nil =>
      have hfirst := one_le_rank first
      show 1 < 2 * rank first + tms.toNat
      omega
    | cons level second =>
      have hrank := ih (Nat.lt_of_succ_lt_succ h)
      have hlevel := level.toNat_le
      rw [rank]
      omega

theorem length_le_of_rank_le {first second : List Bool} (h : rank first ≤ rank second) :
    first.length ≤ second.length :=
  Nat.le_of_not_lt fun hlonger => Nat.not_lt_of_le h (rank_lt_of_length_lt hlonger)

/-- Where two words first differ, the first one is low. -/
def LowFirst (first second : List Bool) : Prop :=
  ∃ common rest later, first = common ++ false :: rest ∧ second = common ++ true :: later

/-- Two words of the same length are the same, or differ at some level first. -/
theorem lowFirst_trichotomy {word other : List Bool} (h : word.length = other.length) :
    word = other ∨ LowFirst word other ∨ LowFirst other word := by
  induction word generalizing other with
  | nil => exact .inl (List.eq_nil_of_length_eq_zero h.symm).symm
  | cons tms word ih =>
    cases other with
    | nil => cases h
    | cons level other =>
      by_cases hlevel : tms = level
      · subst hlevel
        rcases ih (Nat.succ.inj h) with rfl | ⟨common, rest, later, rfl, rfl⟩ |
          ⟨common, rest, later, rfl, rfl⟩
        · exact .inl rfl
        · exact .inr (.inl ⟨tms :: common, rest, later, rfl, rfl⟩)
        · exact .inr (.inr ⟨tms :: common, rest, later, rfl, rfl⟩)
      · cases tms with
        | false =>
          obtain rfl : level = true := by simpa using hlevel
          exact .inr (.inl ⟨[], word, other, rfl, rfl⟩)
        | true =>
          obtain rfl : level = false := by simpa using hlevel
          exact .inr (.inr ⟨[], other, word, rfl, rfl⟩)

/-- Among words of the same length low comes before high: the first level in which they differ
decides, whatever follows it. -/
theorem rank_reverse_lt {word other : List Bool} (h : LowFirst word other)
    (hlength : word.length = other.length) : rank word.reverse < rank other.reverse := by
  obtain ⟨common, rest, later, rfl, rfl⟩ := h
  have hrank : rank (false :: common.reverse) < rank (true :: common.reverse) := by simp [rank]
  have hrest : rest.reverse.length = later.reverse.length := by simpa using hlength
  simpa using rank_append_lt hrank hrest

/-- The order of the numbers is the one by length, and low before high. -/
theorem first_of_rank_le {word other : List Bool} (h : rank word.reverse ≤ rank other.reverse) :
    word.length ≤ other.length ∧
      (word.length = other.length → word = other ∨ LowFirst word other) := by
  refine ⟨by simpa using length_le_of_rank_le h, fun hlength => ?_⟩
  rcases lowFirst_trichotomy hlength with heq | hfirst | hlater
  · exact .inl heq
  · exact .inr hfirst
  · have hrank := rank_reverse_lt hlater hlength.symm
    omega

variable {start target state : TapState} {word : List Bool} {tms : Bool} {frontier : Frontier}
  {done : List (TapState × List Bool)}

/-- What a search records of the states it has met, which it has expanded already or has still in
its queue: each of them once, with a word that leads there, and in the order of these words. -/
structure Records (start : TapState) (done : List (TapState × List Bool)) (frontier : Frontier) :
    Prop where
  met : ∀ state, state ∈ frontier.met ↔ state ∈ (done ++ frontier.queue).map Prod.fst
  distinct : ((done ++ frontier.queue).map Prod.fst).Nodup
  leads : ∀ entry ∈ done ++ frontier.queue, start.walk entry.2.reverse = entry.1
  ordered : (done ++ frontier.queue).Pairwise fun earlier later => rank earlier.2 < rank later.2

/-- A successor is new and joins the end of the queue, or has been met before. -/
theorem extend_cases (frontier : Frontier) (state : TapState) (word : List Bool) (tms : Bool) :
    (state.next tms ∈ frontier.met ∧ frontier.extend state word tms = frontier) ∨
    (state.next tms ∉ frontier.met ∧ frontier.extend state word tms =
      { queue := frontier.queue ++ [(state.next tms, tms :: word)]
        met := state.next tms :: frontier.met }) := by
  unfold extend
  split
  · rename_i hmet
    exact .inl ⟨List.contains_iff_mem.mp hmet, rfl⟩
  · rename_i hmet
    exact .inr ⟨fun hmem => hmet (List.contains_iff_mem.mpr hmem), rfl⟩

/-- Nothing but the successor joins the queue, and nothing leaves it. -/
theorem queue_extend (frontier : Frontier) (state : TapState) (word : List Bool) (tms : Bool) :
    (∀ entry ∈ frontier.queue, entry ∈ (frontier.extend state word tms).queue) ∧
      ∀ entry ∈ (frontier.extend state word tms).queue,
        entry ∈ frontier.queue ∨ entry = (state.next tms, tms :: word) := by
  rcases extend_cases frontier state word tms with ⟨-, heq⟩ | ⟨-, heq⟩
  · rw [heq]
    exact ⟨fun entry hentry => hentry, fun entry hentry => .inl hentry⟩
  · rw [heq]
    exact ⟨fun entry hentry => by simp [hentry], fun entry hentry => by simpa using hentry⟩

/-- The record stays in order if the word of the successor comes after all others. -/
theorem Records.extend (h : Records start done frontier) (hleads : start.walk word.reverse = state)
    (hlast : ∀ entry ∈ done ++ frontier.queue, rank entry.2 < rank (tms :: word)) :
    Records start done (frontier.extend state word tms) := by
  rcases extend_cases frontier state word tms with ⟨-, heq⟩ | ⟨hnew, heq⟩
  · rw [heq]
    exact h
  · have hjoined : done ++ (frontier.extend state word tms).queue =
        (done ++ frontier.queue) ++ [(state.next tms, tms :: word)] := by
      rw [heq, List.append_assoc]
    have hstates : (done ++ (frontier.extend state word tms).queue).map Prod.fst =
        (done ++ frontier.queue).map Prod.fst ++ [state.next tms] := by
      rw [hjoined, List.map_append]
      rfl
    refine ⟨fun other => ?_, ?_, ?_, ?_⟩
    · rw [hstates, heq, List.mem_cons, h.met, List.mem_append, List.mem_singleton, or_comm]
    · rw [hstates, List.nodup_append]
      refine ⟨h.distinct, List.nodup_singleton _, ?_⟩
      rintro other hother next hnext rfl
      rw [List.mem_singleton.mp hnext] at hother
      exact hnew ((h.met _).mpr hother)
    · rw [hjoined]
      intro entry hentry
      rcases List.mem_append.mp hentry with hold | hadded
      · exact h.leads entry hold
      · rw [List.mem_singleton.mp hadded, List.reverse_cons, TapState.walk_append, hleads]
        rfl
    · rw [hjoined]
      refine List.pairwise_append.mpr ⟨h.ordered, List.pairwise_singleton _ _, ?_⟩
      intro entry hentry added hadded
      rw [List.mem_singleton.mp hadded]
      exact hlast entry hentry

/-- Afterwards the successor has been met, by a word that comes no later. -/
theorem Records.exists_successor (h : Records start done frontier)
    (hlast : ∀ entry ∈ done ++ frontier.queue, rank entry.2 < rank (tms :: word)) :
    ∃ other ∈ done ++ (frontier.extend state word tms).queue,
      other.1 = state.next tms ∧ rank other.2 ≤ rank (tms :: word) := by
  rcases extend_cases frontier state word tms with ⟨hmet, heq⟩ | ⟨-, heq⟩
  · obtain ⟨other, hother, hstate⟩ := List.mem_map.mp ((h.met _).mp hmet)
    exact ⟨other, by rwa [heq], hstate, Nat.le_of_lt (hlast other hother)⟩
  · refine ⟨(state.next tms, tms :: word), ?_, rfl, Nat.le_refl _⟩
    rw [heq]
    simp

/-- What has been met is not lost. -/
theorem subset_extend (done : List (TapState × List Bool)) (frontier : Frontier) (state : TapState)
    (word : List Bool) (tms : Bool) :
    done ++ frontier.queue ⊆ done ++ (frontier.extend state word tms).queue := by
  intro entry hentry
  exact List.mem_append.mpr ((List.mem_append.mp hentry).imp_right
    ((queue_extend frontier state word tms).1 entry))

/-- No word comes after that of the successor. -/
theorem rank_le_of_extend
    (hlast : ∀ entry ∈ done ++ frontier.queue, rank entry.2 < rank (tms :: word)) :
    ∀ entry ∈ done ++ (frontier.extend state word tms).queue,
      rank entry.2 ≤ rank (tms :: word) := by
  intro entry hentry
  rcases List.mem_append.mp hentry with hdone | hqueue
  · exact Nat.le_of_lt (hlast entry (by simp [hdone]))
  · rcases (queue_extend frontier state word tms).2 entry hqueue with hold | rfl
    · exact Nat.le_of_lt (hlast entry (by simp [hold]))
    · exact Nat.le_refl _

/-- What a search keeps. It begins with the empty word, no state in the queue is far behind another,
and the successors of every expanded state have been met by words that come no later. -/
structure Explores (start : TapState) (done : List (TapState × List Bool)) (frontier : Frontier) :
    Prop extends Records start done frontier where
  begins : (start, []) ∈ done ++ frontier.queue
  close : ∀ entry ∈ done ++ frontier.queue, ∀ waiting ∈ frontier.queue,
    rank entry.2 < 2 * rank waiting.2
  expanded : ∀ entry ∈ done, ∀ tms, ∃ other ∈ done ++ frontier.queue,
    other.1 = entry.1.next tms ∧ rank other.2 ≤ rank (tms :: entry.2)

/-- A search begins with its first state in the queue. -/
theorem explores_initial (start : TapState) :
    Explores start [] { queue := [(start, [])], met := [start] } where
  met := by simp
  distinct := List.nodup_singleton _
  leads := by simp
  ordered := List.pairwise_singleton _ _
  begins := by simp
  close := by simp [rank]
  expanded := by simp

section Expansion

variable {queue : List (TapState × List Bool)} {met : List TapState}

/-- The first state in the queue is the next one to be expanded. All words met so far come before
those of its successors, and it comes before all that still wait. -/
theorem Explores.pop (h : Explores start done { queue := (state, word) :: queue, met }) :
    Records start (done ++ [(state, word)]) { queue, met } ∧
      (∀ entry ∈ (done ++ [(state, word)]) ++ queue, rank entry.2 < rank (false :: word)) ∧
      ∀ waiting ∈ queue, rank word < rank waiting.2 := by
  have hseen : done ++ (state, word) :: queue = (done ++ [(state, word)]) ++ queue := by simp
  refine ⟨⟨hseen ▸ h.met, hseen ▸ h.distinct, hseen ▸ h.leads, hseen ▸ h.ordered⟩, ?_, ?_⟩
  · intro entry hentry
    exact h.close entry (hseen ▸ hentry) (state, word) List.mem_cons_self
  · exact (List.pairwise_cons.mp (List.pairwise_append.mp h.ordered).2.1).1

/-- Both successors of a state come after it, and so does all that still waits. -/
theorem rank_lt_of_extend (hbehind : ∀ waiting ∈ queue, rank word < rank waiting.2) :
    ∀ waiting ∈
        ((({ queue, met } : Frontier).extend state word false).extend state word true).queue,
      rank word < rank waiting.2 := by
  intro waiting hwaiting
  have hone := one_le_rank word
  rcases (queue_extend _ state word true).2 waiting hwaiting with hwaiting | rfl
  · rcases (queue_extend _ state word false).2 waiting hwaiting with hwaiting | rfl
    · exact hbehind waiting hwaiting
    · rw [rank]
      omega
  · rw [rank]
    omega

/-- A step expands the first state in the queue. -/
theorem Explores.expand (h : Explores start done { queue := (state, word) :: queue, met }) :
    Explores start (done ++ [(state, word)])
      ((({ queue, met } : Frontier).extend state word false).extend state word true) := by
  obtain ⟨hpopped, hlow, hbehind⟩ := h.pop
  have hstate : start.walk word.reverse = state := h.leads (state, word) (by simp)
  have hlowered := hpopped.extend hstate hlow
  -- The low successor has been queued by now, and its word comes before the high one.
  have hhigh : ∀ entry ∈ (done ++ [(state, word)]) ++
      (({ queue, met } : Frontier).extend state word false).queue,
      rank entry.2 < rank (true :: word) := by
    intro entry hentry
    have hle : rank entry.2 ≤ rank (false :: word) := rank_le_of_extend hlow entry hentry
    simp only [rank, Bool.toNat_false, Bool.toNat_true] at hle ⊢
    omega
  have hkept := subset_extend (done ++ [(state, word)])
    (({ queue, met } : Frontier).extend state word false) state word true
  have hseen := List.Subset.trans
    (subset_extend (done ++ [(state, word)]) { queue, met } state word false) hkept
  rw [show (done ++ [(state, word)]) ++ queue = done ++ (state, word) :: queue by simp] at hseen
  refine ⟨hlowered.extend hstate hhigh, hseen h.begins, ?_, ?_⟩
  · intro entry hentry waiting hwaiting
    have hlast : rank entry.2 ≤ rank (true :: word) := rank_le_of_extend hhigh entry hentry
    have hafter := rank_lt_of_extend hbehind waiting hwaiting
    simp only [rank, Bool.toNat_true] at hlast
    omega
  · intro entry hentry tms
    rcases List.mem_append.mp hentry with hdone | hnow
    · obtain ⟨other, hother, hreached⟩ := h.expanded entry hdone tms
      exact ⟨other, hseen hother, hreached⟩
    · obtain rfl := List.mem_singleton.mp hnow
      cases tms with
      | false =>
        obtain ⟨other, hother, hreached⟩ := hpopped.exists_successor hlow
        exact ⟨other, hkept hother, hreached⟩
      | true => exact hlowered.exists_successor hhigh

end Expansion

/-- If a walk leads from a state that a search has met to one that it has not expanded, a state
still waits in the queue whose word comes no later than that of the whole walk. -/
theorem Explores.exists_waiting (h : Explores start done frontier)
    (htarget : ∀ entry ∈ done, entry.1 ≠ target) (later : List Bool) {entry}
    (hentry : entry ∈ done ++ frontier.queue) (hreach : entry.1.walk later = target) :
    ∃ waiting ∈ frontier.queue, rank waiting.2 ≤ rank (later.reverse ++ entry.2) := by
  induction later generalizing entry with
  | nil =>
    rcases List.mem_append.mp hentry with hdone | hwaiting
    · exact absurd hreach (htarget entry hdone)
    · exact ⟨entry, hwaiting, Nat.le_refl _⟩
  | cons tms later ih =>
    rcases List.mem_append.mp hentry with hdone | hwaiting
    · obtain ⟨other, hother, hstate, hrank⟩ := h.expanded entry hdone tms
      obtain ⟨waiting, hwaiting, hle⟩ := ih hother (hstate ▸ hreach)
      refine ⟨waiting, hwaiting, Nat.le_trans hle ?_⟩
      rw [List.reverse_cons, List.append_assoc]
      exact rank_append_le hrank later.reverse
    · exact ⟨entry, hwaiting, rank_le_append _ _⟩

/-- When every state has been expanded, the target is among them. -/
theorem Records.mem_of_length (h : Records start done frontier)
    (hlength : done.length = TapState.all.length) (target : TapState) :
    ∃ entry ∈ done, entry.1 = target := by
  have hdistinct : (done.map Prod.fst).Nodup := by
    have hall := h.distinct
    rw [List.map_append] at hall
    exact (List.nodup_append.mp hall).1
  have hperm : (done.map Prod.fst).Perm TapState.all :=
    (List.subperm_of_subset hdistinct fun state _ => state.mem_all).perm_of_length_le
      (Nat.le_of_eq (by rw [List.length_map, hlength]))
  exact List.mem_map.mp (hperm.mem_iff.mpr target.mem_all)

/-- A search for a state that can be reached finds a word that leads there, and no word that leads
there comes before it. -/
theorem search_first (h : Explores start done frontier)
    (htarget : ∀ entry ∈ done, entry.1 ≠ target) {steps : Nat}
    (hsteps : done.length + steps = TapState.all.length) {reaching : List Bool}
    (hreach : start.walk reaching = target) :
    ∃ word, search target steps frontier = some word ∧ start.walk word = target ∧
      ∀ other, start.walk other = target → rank word.reverse ≤ rank other.reverse := by
  induction steps generalizing done frontier with
  | zero =>
    obtain ⟨entry, hentry, hstate⟩ := h.mem_of_length hsteps target
    exact absurd hstate (htarget entry hentry)
  | succ steps ih =>
    obtain ⟨queue, met⟩ := frontier
    cases queue with
    | nil =>
      obtain ⟨waiting, hwaiting, -⟩ := h.exists_waiting htarget reaching h.begins hreach
      cases hwaiting
    | cons entry queue =>
      obtain ⟨state, word⟩ := entry
      simp only [search]
      split
      · rename_i hstate
        refine ⟨word.reverse, rfl, hstate ▸ h.leads (state, word) (by simp), ?_⟩
        intro other hother
        obtain ⟨waiting, hwaiting, hrank⟩ := h.exists_waiting htarget other h.begins hother
        rw [List.append_nil] at hrank
        rw [List.reverse_reverse]
        refine Nat.le_trans ?_ hrank
        rcases List.mem_cons.mp hwaiting with rfl | hbehind
        · exact Nat.le_refl _
        · exact Nat.le_of_lt (h.pop.2.2 waiting hbehind)
      · rename_i hstate
        refine ih h.expand ?_ ?_
        · intro entry hentry
          rcases List.mem_append.mp hentry with hdone | hnow
          · exact htarget entry hdone
          · rw [List.mem_singleton.mp hnow]
            exact hstate
        · rw [List.length_append, List.length_singleton, ← hsteps]
          omega

end Frontier

namespace TapState

/-- A walk from the reset state that comes to every state. -/
def tour : List Bool :=
  [false, true, false, false, true, false, true, true, true, true, false, false, true, false, true,
    true]

/-- A walk leads from any state to any other, by way of the reset state. -/
theorem exists_walk (start target : TapState) : ∃ word, start.walk word = target := by
  have hreset : start.walk (List.replicate 5 true) = reset := by
    cases start <;> rfl
  have htour : ∃ count ∈ List.range 17, reset.walk (tour.take count) = target := by
    cases target <;> decide
  obtain ⟨count, -, hcount⟩ := htour
  exact ⟨List.replicate 5 true ++ tour.take count, by rw [walk_append, hreset, hcount]⟩

/-- The search between two states ends with the first of all words that lead from one to the
other. -/
theorem shortestWord?_first (start target : TapState) :
    ∃ word, start.shortestWord? target = some word ∧ start.walk word = target ∧
      ∀ other, start.walk other = target →
        word.length ≤ other.length ∧
          (word.length = other.length → word = other ∨ Frontier.LowFirst word other) := by
  obtain ⟨reaching, hreach⟩ := exists_walk start target
  obtain ⟨word, hword, hwalk, hfirst⟩ :=
    Frontier.search_first (Frontier.explores_initial start) (List.forall_mem_nil _)
      (Nat.zero_add _) hreach
  exact ⟨word, hword, hwalk, fun other hother => Frontier.first_of_rank_le (hfirst other hother)⟩

end TapState

/-- A table has the result of the search for every pair of its states, and no other entries. -/
theorem RouteTable.route?_ofStates {states : List TapState} {start target : TapState}
    {word : List Bool} : (ofStates states).route? start target = some word ↔
      start ∈ states ∧ target ∈ states ∧ start.shortestWord? target = some word := by
  have hentry : ∀ other, ((start, target), other) ∈ (ofStates states).entries ↔
      start ∈ states ∧ target ∈ states ∧ start.shortestWord? target = some other := by
    intro other
    simp [ofStates]
  have hsound : ∀ other, (ofStates states).route? start target = some other →
      start ∈ states ∧ target ∈ states ∧ start.shortestWord? target = some other := by
    intro other hroute
    obtain ⟨before, after, hentries, -⟩ := List.lookup_eq_some_iff.mp hroute
    exact (hentry other).mp (by simp [hentries])
  refine ⟨hsound word, fun hfound => ?_⟩
  cases hroute : (ofStates states).route? start target with
  | none =>
    have hother := List.lookup_eq_none_iff.mp hroute _ ((hentry word).mpr hfound)
    simp at hother
  | some other =>
    obtain ⟨-, -, hother⟩ := hsound other hroute
    exact hother.symm.trans hfound.2.2

namespace TapState

/-- Canonical routes exist between the stable states and no others, and come first among all walks.
Whatever word of levels leads from one stable state to another: the route leads there as well, is no
longer, and if it has the same length it is the word itself or has a low level where the two first
differ. -/
theorem routes_first :
    (∀ start target : TapState, (start.route? target).isSome ↔ start ∈ stable ∧ target ∈ stable) ∧
      ∀ start ∈ stable, ∀ target ∈ stable, ∃ route, start.route? target = some route ∧
        start.walk route = target ∧ ∀ word, start.walk word = target →
          route.length ≤ word.length ∧
            (route.length = word.length → route = word ∨ Frontier.LowFirst route word) := by
  have hroute : ∀ start ∈ stable, ∀ target ∈ stable, ∃ route, start.route? target = some route ∧
      start.walk route = target ∧ ∀ word, start.walk word = target →
        route.length ≤ word.length ∧
          (route.length = word.length → route = word ∨ Frontier.LowFirst route word) := by
    intro start hstart target htarget
    obtain ⟨route, hfound, hfirst⟩ := shortestWord?_first start target
    exact ⟨route, RouteTable.route?_ofStates.mpr ⟨hstart, htarget, hfound⟩, hfirst⟩
  refine ⟨fun start target => ⟨fun hsome => ?_, fun hstable => ?_⟩, hroute⟩
  · obtain ⟨route, hsome⟩ := Option.isSome_iff_exists.mp hsome
    obtain ⟨hstart, htarget, -⟩ := RouteTable.route?_ofStates.mp hsome
    exact ⟨hstart, htarget⟩
  · obtain ⟨route, hsome, -⟩ := hroute start hstable.1 target hstable.2
    rw [hsome]
    rfl

/-- From one shift state to the other, compared with a walk that stays in a pause state for one
clock. -/
theorem routes_first_with_pause :
    let word := [true, false, false, true, true, true, true, false, false]
    drShift ∈ stable ∧ irShift ∈ stable ∧ drShift.walk word = irShift ∧
      ∃ route, drShift.route? irShift = some route ∧ drShift.walk route = irShift ∧
        route.length ≤ word.length ∧
          (route.length = word.length → route = word ∨ Frontier.LowFirst route word) := by
  intro word
  have hdata : drShift ∈ stable := by decide
  have hinstruction : irShift ∈ stable := by decide
  have hword : drShift.walk word = irShift := rfl
  obtain ⟨route, hroute, hwalk, hfirst⟩ := routes_first.2 drShift hdata irShift hinstruction
  exact ⟨hdata, hinstruction, hword, route, hroute, hwalk, hfirst word hword⟩

end TapState

end JtagPlayer
