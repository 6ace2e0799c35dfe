import Propositional.Enumeration.Session
import Propositional.Proofs.Enumeration.Items

/-!
# A session counts

In the assignments of `N` names a session is at a number from 0 to `2 ^ N`, and it keeps one
more such number. `Request.moved` says how a request moves the two, and `Request.counted` what
the reply is; so requests one after the other move them by a fold. Neither number ever passes
`2 ^ N`, which is less than half of what a word can hold: so the counter of an enumeration does
not run over, and the number of assignments to come is never taken from a smaller one.

Results:
1. `advance_startingAt`, `nth_startingAt`, `sizeHint_startingAt`, `count_startingAt`,
   `last?_startingAt`, `toList_startingAt`: the steps of an enumeration, by its place.
2. `Session.answer_eq`, `Session.run_eq`: one request, and by induction all of them.
3. `Session.rest_eq_next`: all assignments to come are those that are taken one by one.
4. `Session.run_counts`: the replies of every run, and in every state that it leads to.
-/

namespace Propositional.Enumeration

/-- The assignment of the names with this number, if there is one. -/
def numbered? (names : Array Name) (fits : names.size ≤ nameLimit) (number : Nat) :
    Option Assignment :=
  if number < 2 ^ names.size then some (numbered names fits number) else none

/-- The enumeration that goes on with assignment number `place`. -/
def startingAt (names : Array Name) (fits : names.size ≤ nameLimit) (place : Nat) : Enumeration :=
  ⟨names, .ofNat place, .ofNat (2 ^ names.size), fits⟩

variable {names : Array Name} {fits : names.size ≤ nameLimit} {place : Nat}

/-! ## Places -/

theorem toNat_stop : (startingAt names fits place).stop.toNat = 2 ^ names.size :=
  toNat_ofNat_of_le fits (Nat.le_refl _)

theorem toNat_next (inside : place ≤ 2 ^ names.size) :
    (startingAt names fits place).next.toNat = place :=
  toNat_ofNat_of_le fits inside

theorem numbered?_eq_some {number : Nat} (inside : number < 2 ^ names.size) :
    numbered? names fits number = some (numbered names fits number) :=
  if_pos inside

theorem numbered?_eq_none_iff {number : Nat} :
    numbered? names fits number = none ↔ 2 ^ names.size ≤ number := by
  rw [numbered?, ite_eq_right_iff, ← Nat.not_lt]
  simp

theorem numbered?_eq_none {number : Nat} (beyond : 2 ^ names.size ≤ number) :
    numbered? names fits number = none :=
  numbered?_eq_none_iff.2 beyond

/-! ## The steps of an enumeration -/

theorem items_startingAt (inside : place ≤ 2 ^ names.size) :
    (startingAt names fits place).items =
      (List.range' place (2 ^ names.size - place)).map (numbered names fits) := by
  rw [items, toNat_stop, toNat_next inside]
  rfl

theorem all_eq_startingAt : all names fits = startingAt names fits 0 := by
  have stop : (all names fits).stop = .ofNat (2 ^ names.size) := by
    rw [← UInt64.toNat_inj, toNat_stop_all]
    exact (@toNat_stop names fits 0).symm
  exact Enumeration.ext rfl rfl stop

theorem advance_startingAt (more : place < 2 ^ names.size) :
    (startingAt names fits place).advance =
      some (numbered names fits place, startingAt names fits (place + 1)) := by
  have below : (startingAt names fits place).next < (startingAt names fits place).stop := by
    rw [UInt64.lt_iff_toNat_lt, toNat_stop, toNat_next (Nat.le_of_lt more)]
    exact more
  have succ : (startingAt names fits place).next + 1 = .ofNat (place + 1) := by
    rw [← UInt64.toNat_inj, toNat_next_succ below, toNat_next (Nat.le_of_lt more),
      toNat_ofNat_of_le fits more]
  rw [advance, if_pos below, succ]
  rfl

theorem advance_exhausted : (startingAt names fits (2 ^ names.size)).advance = none :=
  if_neg (UInt64.lt_irrefl _)

/-- Takes the assignment after so many others; if there are not as many, all are used up. -/
theorem nth_startingAt (inside : place ≤ 2 ^ names.size) (skipped : Nat) :
    (startingAt names fits place).nth skipped =
      (numbered? names fits (place + skipped),
        startingAt names fits (min (place + skipped + 1) (2 ^ names.size))) := by
  induction skipped generalizing place with
  | zero =>
    rcases Nat.lt_or_eq_of_le inside with more | rfl
    · simp only [nth, advance_startingAt more, Nat.add_zero, numbered?_eq_some more,
        Nat.min_eq_left more]
    · simp only [nth, advance_exhausted, Nat.add_zero, numbered?_eq_none (Nat.le_refl _),
        Nat.min_eq_right (Nat.le_succ _)]
  | succ skipped ih =>
    rcases Nat.lt_or_eq_of_le inside with more | rfl
    · have sum : place.succ + skipped = place + (skipped + 1) := Nat.succ_add_eq_add_succ _ _
      simp only [nth, advance_startingAt more, ih more, sum]
    · have beyond : 2 ^ names.size ≤ 2 ^ names.size + (skipped + 1) := Nat.le_add_right _ _
      simp only [nth, advance_exhausted, numbered?_eq_none beyond,
        Nat.min_eq_right (Nat.le_succ_of_le beyond)]

theorem toNat_remaining (inside : place ≤ 2 ^ names.size) :
    (startingAt names fits place).remaining.toNat = 2 ^ names.size - place := by
  have order : (startingAt names fits place).next ≤ (startingAt names fits place).stop := by
    rw [UInt64.le_iff_toNat_le, toNat_stop, toNat_next inside]
    exact inside
  rw [remaining, UInt64.toNat_sub_of_le _ _ order, toNat_stop, toNat_next inside]

theorem sizeHint_startingAt (inside : place ≤ 2 ^ names.size) :
    (startingAt names fits place).sizeHint (UInt64.size - 1) =
      (2 ^ names.size - place, some (2 ^ names.size - place)) := by
  have word : (startingAt names fits place).remaining.toNat ≤ UInt64.size - 1 :=
    Nat.le_sub_one_of_lt (UInt64.toNat_lt_size _)
  rw [sizeHint, if_pos word, toNat_remaining inside]

theorem toList_startingAt (inside : place ≤ 2 ^ names.size) :
    (startingAt names fits place).toList =
      (List.range' place (2 ^ names.size - place)).map (numbered names fits) := by
  rw [toList_eq_items, items_startingAt inside]

theorem count_startingAt (inside : place ≤ 2 ^ names.size) :
    (startingAt names fits place).count = 2 ^ names.size - place := by
  rw [count_eq_length, items_startingAt inside, List.length_map, List.length_range']

theorem last?_startingAt (inside : place ≤ 2 ^ names.size) :
    (startingAt names fits place).last? =
      if place < 2 ^ names.size then some (numbered names fits (2 ^ names.size - 1)) else none := by
  rw [last?_eq_getLast?, items_startingAt inside, List.getLast?_map, List.getLast?_range']
  rcases Nat.lt_or_eq_of_le inside with more | rfl
  · have left : 2 ^ names.size - place ≠ 0 := Nat.sub_ne_zero_of_lt more
    rw [if_neg left, if_pos more, Nat.add_sub_of_le inside]
    rfl
  · simp

/-! ## Sessions -/

namespace Request

/-- The requests that take one assignment. -/
def takes : Request → Bool
  | .next | .nth _ => true
  | _ => false

/-- The places after a request: where the session goes on, and the one that it keeps. -/
def moved (total : Nat) : Nat × Nat → Request → Nat × Nat
  | (place, kept), .next => (min (place + 1) total, kept)
  | (place, kept), .nth skipped => (min (place + skipped + 1) total, kept)
  | (_, kept), .rest => (total, kept)
  | (place, _), .save => (place, place)
  | (_, kept), .restore => (kept, kept)
  | places, .sizeHint | places, .count | places, .last => places

/-- The reply to a request where the session goes on with assignment number `place`. -/
def counted (names : Array Name) (fits : names.size ≤ nameLimit) (place : Nat) : Request → Reply
  | .next => .item (numbered? names fits place)
  | .nth skipped => .item (numbered? names fits (place + skipped))
  | .sizeHint => .sizeHint (2 ^ names.size - place) (some (2 ^ names.size - place))
  | .count => .count (2 ^ names.size - place)
  | .last =>
    .item (if place < 2 ^ names.size then some (numbered names fits (2 ^ names.size - 1)) else none)
  | .rest => .items ((List.range' place (2 ^ names.size - place)).map (numbered names fits))
  | .save | .restore => .done

/-- The replies to some requests, by the places before the first. -/
def replies (names : Array Name) (fits : names.size ≤ nameLimit) :
    Nat × Nat → List Request → List Reply
  | _, [] => []
  | places, request :: requests =>
    request.counted names fits places.1 ::
      replies names fits (request.moved (2 ^ names.size) places) requests

theorem moved_le {total : Nat} {places : Nat × Nat} (inside : places.1 ≤ total)
    (kept : places.2 ≤ total) (request : Request) :
    (moved total places request).1 ≤ total ∧ (moved total places request).2 ≤ total := by
  cases request with
  | next | nth => exact ⟨Nat.min_le_right _ _, kept⟩
  | rest => exact ⟨Nat.le_refl _, kept⟩
  | save => exact ⟨inside, inside⟩
  | restore => exact ⟨kept, kept⟩
  | sizeHint | count | last => exact ⟨inside, kept⟩

theorem foldl_moved_le {total : Nat} {places : Nat × Nat} (inside : places.1 ≤ total)
    (kept : places.2 ≤ total) (requests : List Request) :
    (requests.foldl (moved total) places).1 ≤ total ∧
      (requests.foldl (moved total) places).2 ≤ total := by
  induction requests generalizing places with
  | nil => exact ⟨inside, kept⟩
  | cons request requests ih =>
    obtain ⟨inside, kept⟩ := moved_le inside kept request
    exact ih inside kept

/-- Behind the last assignment only coming back to an earlier place leads on. -/
theorem moved_total {total : Nat} {places : Nat × Nat} {request : Request}
    (behind : places.1 = total) (forward : request ≠ .restore) :
    (moved total places request).1 = total := by
  cases request with
  | next => exact Nat.min_eq_right (behind ▸ Nat.le_succ _)
  | nth skipped => exact Nat.min_eq_right (behind ▸ Nat.le_add_right _ (skipped + 1))
  | restore => exact absurd rfl forward
  | rest => rfl
  | save | sizeHint | count | last => exact behind

theorem foldl_moved_total {total : Nat} {places : Nat × Nat} {requests : List Request}
    (behind : places.1 = total) (forward : .restore ∉ requests) :
    (requests.foldl (moved total) places).1 = total := by
  induction requests generalizing places with
  | nil => exact behind
  | cons request requests ih =>
    obtain ⟨here, later⟩ := not_or.1 (mt List.mem_cons.2 forward)
    exact ih (moved_total behind (Ne.symm here)) later

/-- An assignment that is missed is missed behind the last one. -/
theorem moved_of_counted_none {places : Nat × Nat} {request : Request} (takes : request.takes)
    (missed : request.counted names fits places.1 = .item none) :
    (request.moved (2 ^ names.size) places).1 = 2 ^ names.size := by
  cases request with
  | next =>
    have beyond := numbered?_eq_none_iff.1 (Reply.item.inj missed)
    exact Nat.min_eq_right (Nat.le_succ_of_le beyond)
  | nth skipped =>
    have beyond := numbered?_eq_none_iff.1 (Reply.item.inj missed)
    exact Nat.min_eq_right (Nat.le_succ_of_le beyond)
  | _ => cases takes

theorem counted_of_le {request : Request} (takes : request.takes)
    (beyond : 2 ^ names.size ≤ place) : request.counted names fits place = .item none := by
  cases request with
  | next => rw [counted, numbered?_eq_none beyond]
  | nth skipped => rw [counted, numbered?_eq_none (Nat.le_add_right_of_le beyond)]
  | _ => cases takes

end Request

namespace Session

/-- The session at a place that keeps another. -/
def ofPlaces (names : Array Name) (fits : names.size ≤ nameLimit) (places : Nat × Nat) : Session :=
  ⟨startingAt names fits places.1, startingAt names fits places.2⟩

/-- A request is answered by counting. -/
theorem answer_eq {places : Nat × Nat} (inside : places.1 ≤ 2 ^ names.size) (request : Request) :
    (ofPlaces names fits places).answer request =
      (request.counted names fits places.1,
        ofPlaces names fits (request.moved (2 ^ names.size) places)) := by
  cases request with
  | next =>
    rcases Nat.lt_or_eq_of_le inside with more | last
    · simp only [ofPlaces, answer, advance_startingAt more, Request.counted, Request.moved,
        numbered?_eq_some more, Nat.min_eq_left (Nat.succ_le_of_lt more)]
    · simp only [ofPlaces, answer, last, advance_exhausted, Request.counted, Request.moved,
        numbered?_eq_none (Nat.le_refl _), Nat.min_eq_right (Nat.le_succ _)]
  | nth skipped =>
    simp only [ofPlaces, answer, nth_startingAt inside, Request.counted, Request.moved]
  | sizeHint =>
    simp only [ofPlaces, answer, sizeHint_startingAt inside, Request.counted, Request.moved]
  | count => simp only [ofPlaces, answer, count_startingAt inside, Request.counted, Request.moved]
  | last => simp only [ofPlaces, answer, last?_startingAt inside, Request.counted, Request.moved]
  | rest =>
    simp only [ofPlaces, answer, toList_startingAt inside, Request.counted, Request.moved]
    rfl
  | save => rfl
  | restore => rfl

/-- Requests one after the other are answered by counting, and move the places. -/
theorem run_eq {places : Nat × Nat} (inside : places.1 ≤ 2 ^ names.size)
    (kept : places.2 ≤ 2 ^ names.size) (requests : List Request) :
    (ofPlaces names fits places).run requests =
      (Request.replies names fits places requests,
        ofPlaces names fits (requests.foldl (Request.moved (2 ^ names.size)) places)) := by
  induction requests generalizing places with
  | nil => rfl
  | cons request requests ih =>
    obtain ⟨inside', kept'⟩ := Request.moved_le inside kept request
    rw [run, answer_eq inside, List.foldl_cons, Request.replies]
    dsimp only
    rw [ih inside' kept']

/-- Assignments are taken one after the other, as long as there are so many to come. -/
theorem run_replicate_next {kept : Nat} (count : Nat) {place : Nat}
    (inside : place + count ≤ 2 ^ names.size) :
    (ofPlaces names fits (place, kept)).run (List.replicate count .next) =
      ((List.range' place count).map fun number => .item (some (numbered names fits number)),
        ofPlaces names fits (place + count, kept)) := by
  induction count generalizing place with
  | zero => rfl
  | succ count ih =>
    have sum : place + 1 + count = place + (count + 1) := Nat.succ_add_eq_add_succ _ _
    have more : place + 1 ≤ 2 ^ names.size :=
      Nat.le_trans (sum ▸ Nat.le_add_right _ count) inside
    rw [List.replicate_succ, run, answer_eq (Nat.le_of_succ_le more), Request.counted,
      numbered?_eq_some more, Request.moved, Nat.min_eq_left more]
    dsimp only
    rw [ih (sum ▸ inside), sum, List.range'_succ, List.map_cons]

/-- Taking all assignments to come is taking one after the other until there is none: they are
the same, and so is the session behind them. -/
theorem rest_eq_next {places : Nat × Nat} (inside : places.1 ≤ 2 ^ names.size) :
    ∃ items final, (ofPlaces names fits places).answer .rest = (.items items, final) ∧
      (ofPlaces names fits places).run (List.replicate items.length .next) =
        (items.map fun item => .item (some item), final) ∧
      final.answer .next = (.item none, final) := by
  refine ⟨_, _, answer_eq inside .rest, ?_, ?_⟩
  · have all : places.1 + (2 ^ names.size - places.1) = 2 ^ names.size := Nat.add_sub_of_le inside
    rw [List.length_map, List.length_range', run_replicate_next _ (Nat.le_of_eq all), all,
      List.map_map]
    rfl
  · rw [Request.moved, answer_eq (Nat.le_refl _), Request.counted,
      numbered?_eq_none (Nat.le_refl _), Request.moved, Nat.min_eq_right (Nat.le_succ _)]

/-- Once an assignment is missed, each one is, until the session comes back to an earlier place. -/
theorem answer_after_none {places : Nat × Nat} (inside : places.1 ≤ 2 ^ names.size)
    (kept : places.2 ≤ 2 ^ names.size) {request again : Request} {later : List Request}
    (takes : request.takes) (takesAgain : again.takes) (forward : .restore ∉ later)
    (missed : ((ofPlaces names fits places).answer request).1 = .item none) :
    ((((ofPlaces names fits places).answer request).2.run later).2.answer again).1 =
      .item none := by
  obtain ⟨inside', kept'⟩ := Request.moved_le inside kept request
  rw [answer_eq inside] at missed ⊢
  have behind := Request.moved_of_counted_none takes missed
  have still := Request.foldl_moved_total behind forward
  rw [run_eq inside' kept', answer_eq (Nat.le_of_eq still), still]
  exact Request.counted_of_le takesAgain (Nat.le_refl _)

/-- The replies to any requests are counted off, from the places that the requests before lead
to. In the state after them the number of the next assignment is at most that of all
assignments, and it alone decides the reply to a request. -/
theorem run_counts (names : Array Name) (few : names.size ≤ nameLimit) :
    ∃ e, ofNames names = .ok e ∧
      (∀ number < 2 ^ names.size, (numbered names few number).index.toNat = number) ∧
      ∀ requests : List Request, ∃ s places,
        (start e).run requests = (Request.replies names few (0, 0) requests, s) ∧
        places = requests.foldl (Request.moved (2 ^ names.size)) (0, 0) ∧
        s.current.next.toNat = places.1 ∧ s.saved.next.toNat = places.2 ∧
        s.current.stop.toNat = 2 ^ names.size ∧ s.saved.stop.toNat = 2 ^ names.size ∧
        places.1 ≤ 2 ^ names.size ∧ places.2 ≤ 2 ^ names.size ∧
        (∀ request, (s.answer request).1 = request.counted names few places.1 ∧
          (s.answer request).2.current.next.toNat =
            (request.moved (2 ^ names.size) places).1 ∧
          (s.answer request).2.saved.next.toNat =
            (request.moved (2 ^ names.size) places).2) ∧
        ∀ request : Request, request.takes → (s.answer request).1 = .item none →
          ∀ later, .restore ∉ later → ∀ again : Request, again.takes →
            (((s.answer request).2.run later).2.answer again).1 = .item none := by
  refine ⟨all names few, dif_pos few, fun _ => toNat_index_numbered few, fun requests => ?_⟩
  have start_eq : start (all names few) = ofPlaces names few (0, 0) := by
    rw [all_eq_startingAt]
    rfl
  have first : 0 ≤ 2 ^ names.size := Nat.zero_le _
  obtain ⟨inside, kept⟩ := @Request.foldl_moved_le _ (0, 0) first first requests
  refine ⟨_, _, start_eq ▸ run_eq first first requests, rfl, toNat_next inside, toNat_next kept,
    toNat_stop, toNat_stop, inside, kept, fun request => ?_, ?_⟩
  · obtain ⟨inside', kept'⟩ := Request.moved_le inside kept request
    rw [answer_eq inside]
    exact ⟨rfl, toNat_next inside', toNat_next kept'⟩
  · intro request takes missed later forward again takesAgain
    exact answer_after_none inside kept takes takesAgain forward missed

/-- Of the two assignments of one name, taking the one after four others takes none and leaves
none, whatever else is asked for. -/
theorem run_counts_beyond :
    ∃ e, ofNames #[⟨"A", by decide⟩] = .ok e ∧
      ∃ s : Session, ((start e).run [.next]).2 = s ∧ (s.answer (.nth 4)).1 = .item none ∧
        (((s.answer (.nth 4)).2.run [.count, .save, .rest]).2.answer .next).1 = .item none := by
  obtain ⟨e, all, -, states⟩ := run_counts #[⟨"A", by decide⟩] (by decide)
  obtain ⟨s, places, reached, -, -, -, -, -, -, -, replies, missed⟩ := states [.next]
  have none_left : (s.answer (.nth 4)).1 = .item none := by
    have beyond : 2 ^ 1 ≤ places.1 + 4 := Nat.le_add_left_of_le (by decide)
    rw [(replies _).1]
    exact congrArg Reply.item (numbered?_eq_none beyond)
  exact ⟨e, all, s, congrArg Prod.snd reached, none_left,
    missed _ rfl none_left _ (by decide) _ rfl⟩

end Session

end Propositional.Enumeration
