import JuceWorkbench.Proofs.Text.Blank

/-! Lines put together again. A text of complete lines in front of another text is split
apart from it, `lines_append`, so a document can be cut in front of any of its lines. A line
that is put in there stays a line of its own; its break may take in an empty line behind it,
when the one is a carriage return and the other a line feed: `lines_insert`. -/

namespace JuceWorkbench.Text

/-- A text of complete lines: it is empty or ends in a line break. -/
def Complete (text : List Char) : Prop := ∀ c, text.getLast? = some c → isLineBreak c = true

theorem complete_nil : Complete [] := by
  intro c last
  cases last

theorem complete_append_singleton (text : List Char) (c : Char) (breaks : isLineBreak c = true) :
    Complete (text ++ [c]) := by
  intro d last
  rw [List.getLast?_concat] at last
  exact Option.some.inj last ▸ breaks

theorem Complete.append {front back : List Char} (first : Complete front) (second : Complete back) :
    Complete (front ++ back) := by
  intro c last
  rw [List.getLast?_append] at last
  cases final : back.getLast? with
  | none =>
    rw [final] at last
    exact first c last
  | some d =>
    rw [final] at last
    exact second c (final.trans last)

theorem Complete.tail {c : Char} {text : List Char} (complete : Complete (c :: text)) :
    Complete text := by
  intro d last
  refine complete d ?_
  rw [List.getLast?_cons, last]
  rfl

theorem lines_cons (c : Char) (rest : List Char) (apart : c = '\r' → rest.head? ≠ some '\n') :
    lines (c :: rest) =
      if isLineBreak c then [c] :: lines rest else prepend [c] (lines rest) := by
  rw [lines.eq_3]
  intro more returns feeds
  exact apart returns (by rw [feeds]; rfl)

theorem lines_ne_nil {text : List Char} (filled : text ≠ []) : lines text ≠ [] := by
  intro none
  have whole := flatten_lines text
  rw [none] at whole
  exact filled whole.symm

theorem prepend_append (piece : List Char) (front back : List (List Char)) (filled : front ≠ []) :
    prepend piece (front ++ back) = prepend piece front ++ back := by
  cases front with
  | nil => exact absurd rfl filled
  | cons line more => rfl

theorem lines_append (front back : List Char) (complete : Complete front)
    (apart : front.getLast? = some '\r' → back.head? ≠ some '\n') :
    lines (front ++ back) = lines front ++ lines back := by
  fun_induction lines front with
  | case1 => rfl
  | case2 rest ih =>
    have later := ih complete.tail.tail (by
      intro last
      refine apart ?_
      rw [List.getLast?_cons, List.getLast?_cons, last]
      rfl)
    simp only [List.cons_append, lines, later]
  | case3 c rest notPair breaks ih =>
    have later := ih complete.tail (by
      intro last
      refine apart ?_
      rw [List.getLast?_cons, last]
      rfl)
    rw [List.cons_append, lines_cons, if_pos breaks, later, List.cons_append]
    intro returns feeds
    cases rest with
    | nil => exact apart (by rw [returns]; rfl) feeds
    | cons d more => exact notPair more returns (by simp at feeds; rw [feeds])
  | case4 c rest notPair plain ih =>
    have filled : rest ≠ [] := by
      rintro rfl
      exact plain (complete c rfl)
    have later := ih complete.tail (by
      intro last
      refine apart ?_
      rw [List.getLast?_cons, last]
      rfl)
    rw [List.cons_append, lines_cons, if_neg plain, later,
      prepend_append _ _ _ (lines_ne_nil filled)]
    intro returns feeds
    cases rest with
    | nil => exact filled rfl
    | cons d more => exact notPair more returns (by simp at feeds; rw [feeds])

/-! Cutting a document in front of a line. -/

theorem lines_take (text : List Char) (n : Nat) :
    lines ((lines text).take n).flatten = (lines text).take n := by
  have prefixed : ∀ (rest : List Char) (m : Nat), ((lines rest).take m).flatten.head? = some '\n' →
      rest.head? = some '\n' := by
    intro rest m first
    have whole := flatten_lines rest
    rw [← List.take_append_drop m (lines rest), List.flatten_append] at whole
    rw [← whole, List.head?_append, first]
    rfl
  fun_induction lines text generalizing n with
  | case1 => simp [lines]
  | case2 rest ih =>
    cases n with
    | zero => rfl
    | succ n => simp [lines, ih]
  | case3 c rest notPair breaks ih =>
    cases n with
    | zero => rfl
    | succ n =>
      rw [List.take_succ_cons, List.flatten_cons, List.singleton_append, lines_cons, if_pos breaks, ih]
      intro returns feeds
      cases rest with
      | nil => simp [lines] at feeds
      | cons d more =>
        have first := prefixed _ _ feeds
        exact notPair more returns (by simp at first; rw [first])
  | case4 c rest notPair plain ih =>
    cases n with
    | zero => rfl
    | succ n =>
      have step : ((prepend [c] (lines rest)).take (n + 1)).flatten =
          c :: ((lines rest).take (n + 1)).flatten := by
        cases lines rest <;> simp [prepend]
      rw [step, lines_cons, if_neg plain, ih]
      · cases lines rest <;> simp [prepend]
      · intro returns feeds
        cases rest with
        | nil => simp [lines] at feeds
        | cons d more =>
          have first := prefixed _ _ feeds
          exact notPair more returns (by simp at first; rw [first])

theorem lines_drop (text : List Char) (n : Nat) :
    lines ((lines text).drop n).flatten = (lines text).drop n := by
  fun_induction lines text generalizing n with
  | case1 => simp [lines]
  | case2 rest ih =>
    cases n with
    | zero => simp [lines, flatten_lines]
    | succ n => exact ih n
  | case3 c rest notPair breaks ih =>
    cases n with
    | zero =>
      rw [List.drop_zero, List.flatten_cons, flatten_lines, List.singleton_append,
        lines.eq_3 _ _ notPair, if_pos breaks]
    | succ n => exact ih n
  | case4 c rest notPair plain ih =>
    cases n with
    | zero =>
      rw [List.drop_zero, flatten_prepend, flatten_lines, List.singleton_append,
        lines.eq_3 _ _ notPair, if_neg plain]
    | succ n =>
      have step : (prepend [c] (lines rest)).drop (n + 1) = (lines rest).drop (n + 1) := by
        cases lines rest <;> simp [prepend]
      rw [step, ih]

theorem exists_break_of_take (text : List Char) (n : Nat) (inside : n + 1 < (lines text).length) :
    ∃ front c, ((lines text).take (n + 1)).flatten = front ++ [c] ∧ isLineBreak c = true := by
  fun_induction lines text generalizing n with
  | case1 => simp at inside
  | case2 rest ih =>
    cases n with
    | zero => exact ⟨['\r'], '\n', by simp, by decide⟩
    | succ n =>
      obtain ⟨front, c, same, breaks⟩ := ih n (by simpa using inside)
      exact ⟨'\r' :: '\n' :: front, c, by simp [same], breaks⟩
  | case3 d rest notPair breaks ih =>
    cases n with
    | zero => exact ⟨[], d, by simp, breaks⟩
    | succ n =>
      obtain ⟨front, c, same, breaks⟩ := ih n (by simpa using inside)
      exact ⟨d :: front, c, by simp [same], breaks⟩
  | case4 d rest notPair plain ih =>
    cases split : lines rest with
    | nil => simp [split, prepend] at inside
    | cons line more =>
      rw [split] at ih inside
      obtain ⟨front, c, same, breaks⟩ := ih n inside
      refine ⟨d :: front, c, ?_, breaks⟩
      rw [List.cons_append, ← same]
      simp [prepend]

theorem complete_take (text : List Char) (n : Nat) (inside : n < (lines text).length) :
    Complete ((lines text).take n).flatten := by
  cases n with
  | zero => exact complete_nil
  | succ n =>
    obtain ⟨front, c, same, breaks⟩ := exists_break_of_take text n inside
    rw [same]
    exact complete_append_singleton front c breaks

/-! The parts of one line. -/

theorem exists_body_of_mem_lines (text line : List Char) (member : line ∈ lines text) :
    ∃ body ending, line = body ++ ending ∧ (∀ c ∈ body, isLineBreak c = false) ∧
      ∀ c ∈ ending, isLineBreak c = true := by
  fun_induction lines text generalizing line with
  | case1 => cases member
  | case2 rest ih =>
    rcases List.mem_cons.1 member with rfl | later
    · exact ⟨[], ['\r', '\n'], rfl, by simp, List.all_eq_true.1 (by decide)⟩
    · exact ih _ later
  | case3 c rest notPair breaks ih =>
    rcases List.mem_cons.1 member with rfl | later
    · exact ⟨[], [c], rfl, by simp, by simpa using breaks⟩
    · exact ih _ later
  | case4 c rest notPair plain ih =>
    cases split : lines rest with
    | nil =>
      rw [split] at member
      obtain rfl : line = [c] := by simpa [prepend] using member
      exact ⟨[c], [], rfl, by simpa using plain, by simp⟩
    | cons first more =>
      rw [split] at member ih
      rcases List.mem_cons.1 member with rfl | later
      · obtain ⟨body, ending, rfl, clean, breaks⟩ := ih _ List.mem_cons_self
        refine ⟨c :: body, ending, rfl, ?_, breaks⟩
        intro d found
        rcases List.mem_cons.1 found with rfl | deeper
        · simpa using plain
        · exact clean d deeper
      · exact ih _ (List.mem_cons_of_mem first later)

/-! The line endings that new lines take. -/

def endings : List (List Char) := [['\n'], ['\r'], ['\r', '\n']]

theorem newlineOf_mem_endings (document : List (List Char)) : newlineOf document ∈ endings := by
  fun_induction newlineOf document with
  | case5 line more _ _ _ ih => exact ih
  | _ => decide

theorem newlineOf_ended (body ending : List Char) (more : List (List Char))
    (apart : body.getLast? ≠ some '\r') (known : ending ∈ endings) :
    newlineOf ((body ++ ending) :: more) = ending := by
  simp only [endings, List.mem_cons, List.not_mem_nil, or_false] at known
  rcases known with rfl | rfl | rfl
  · unfold newlineOf
    simp only [List.reverse_append, List.reverse_cons, List.reverse_nil, List.nil_append,
      List.singleton_append]
    split
    · rename_i same
      have last := (List.cons.inj same).2
      exact absurd (by rw [← List.head?_reverse, last]; rfl) apart
    · rfl
    · rename_i same
      cases same
    · rename_i feeds _
      exact absurd rfl (feeds _)
  · simp [newlineOf]
  · simp [newlineOf]

theorem not_returns_of_dark {body : List Char} {d : Char} (last : body.getLast? = some d)
    (dark : isBlank d = false) : body.getLast? ≠ some '\r' := by
  rw [last]
  rintro ⟨⟩
  exact absurd dark (by decide)

theorem newlineOf_insert (above rest : List (List Char)) (body ending : List Char) (d : Char)
    (last : body.getLast? = some d) (dark : isBlank d = false)
    (same : newlineOf (above ++ rest) = ending) :
    newlineOf (above ++ (body ++ ending) :: rest) = ending := by
  induction above with
  | nil =>
    exact newlineOf_ended body ending rest (not_returns_of_dark last dark) (same ▸ newlineOf_mem_endings rest)
  | cons line above ih =>
    rw [List.cons_append, newlineOf] at same ⊢
    revert same
    split
    · exact id
    · exact id
    · exact id
    · exact ih

theorem blank_of_mem_endings {ending : List Char} (known : ending ∈ endings) :
    ∀ c ∈ ending, isBlank c = true := by
  have all : endings.all (·.all isBlank) = true := by decide
  exact List.all_eq_true.1 (List.all_eq_true.1 all ending known)

theorem exists_break_of_mem_endings {ending : List Char} (known : ending ∈ endings) :
    ∃ front c, ending = front ++ [c] ∧ isLineBreak c = true := by
  simp only [endings, List.mem_cons, List.not_mem_nil, or_false] at known
  rcases known with rfl | rfl | rfl
  · exact ⟨[], '\n', rfl, by decide⟩
  · exact ⟨[], '\r', rfl, by decide⟩
  · exact ⟨['\r'], '\n', rfl, by decide⟩

theorem lines_body_append (body rest : List Char) (clean : ∀ c ∈ body, isLineBreak c = false)
    (filled : rest ≠ []) : lines (body ++ rest) = prepend body (lines rest) := by
  induction body with
  | nil =>
    cases split : lines rest with
    | nil => exact absurd split (lines_ne_nil filled)
    | cons line more => simp [prepend, split]
  | cons c body ih =>
    have plain := clean c List.mem_cons_self
    rw [List.cons_append, lines_cons, if_neg (by simp [plain]),
      ih fun d member => clean d (List.mem_cons_of_mem c member)]
    · cases lines rest <;> simp [prepend]
    · rintro rfl
      cases plain

theorem lines_body {body : List Char} (clean : ∀ c ∈ body, isLineBreak c = false) (filled : body ≠ []) :
    lines body = [body] := by
  obtain ⟨front, c, rfl⟩ := (List.eq_nil_or_concat body).resolve_left filled
  rw [List.concat_eq_append] at clean ⊢
  have last : isLineBreak c = false := clean c (by simp)
  rw [lines_body_append front [c] (fun d member => clean d (List.mem_append_left _ member)) (List.cons_ne_nil _ _),
    lines_cons c [] (by simp), if_neg (by rw [last]; exact Bool.false_ne_true)]
  rfl

theorem lines_ending_append (ending text : List Char) (known : ending ∈ endings)
    (apart : ending = ['\r'] → text.head? ≠ some '\n') :
    lines (ending ++ text) = ending :: lines text := by
  simp only [endings, List.mem_cons, List.not_mem_nil, or_false] at known
  rcases known with rfl | rfl | rfl
  · rfl
  · rw [List.singleton_append, lines_cons _ _ (fun _ => apart rfl), if_pos (by decide)]
  · rfl

theorem lines_ended_append (body ending text : List Char)
    (clean : ∀ c ∈ body, isLineBreak c = false) (known : ending ∈ endings)
    (apart : ending = ['\r'] → text.head? ≠ some '\n') :
    lines (body ++ ending ++ text) = (body ++ ending) :: lines text := by
  have filled : ending ++ text ≠ [] := by
    intro none
    rw [(List.append_eq_nil_iff.1 none).1] at known
    exact absurd known (by decide)
  rw [List.append_assoc, lines_body_append _ _ clean filled, lines_ending_append _ _ known apart]
  rfl

/-- A line that gets an ending stays apart from what follows it, unless the ending is a
carriage return and the next line nothing but a line feed: these two are one line break. -/
theorem lines_ended (body ending : List Char) (rest : List (List Char))
    (clean : ∀ c ∈ body, isLineBreak c = false) (known : ending ∈ endings)
    (split : lines rest.flatten = rest) :
    ∃ last more, last ∈ endings ∧ lines (body ++ ending ++ rest.flatten) = (body ++ last) :: more ∧
      (last = ending ∧ more = rest ∨ rest = ['\n'] :: more) := by
  by_cases merges : ending = ['\r'] ∧ rest.flatten.head? = some '\n'
  · obtain ⟨rfl, feeds⟩ := merges
    obtain ⟨text, feed⟩ := List.head?_eq_some_iff.1 feeds
    refine ⟨['\r', '\n'], lines text, by decide, ?_, Or.inr ?_⟩
    · have rejoined : body ++ ['\r'] ++ rest.flatten = body ++ ['\r', '\n'] ++ text := by
        rw [feed]
        simp
      rw [rejoined, lines_ended_append _ _ _ clean (by decide) (by simp)]
    · rw [← split, feed, lines_cons _ _ (by simp), if_pos (by decide)]
  · refine ⟨ending, rest, known, ?_, Or.inl ⟨rfl, rfl⟩⟩
    rw [lines_ended_append _ _ _ clean known (fun same feeds => merges ⟨same, feeds⟩), split]

theorem lines_ended_all {ending : List Char} (known : ending ∈ endings) (bodies : List (List Char))
    (clean : ∀ body ∈ bodies, ∀ c ∈ body, isLineBreak c = false) (filled : ∀ body ∈ bodies, body ≠ []) :
    lines (bodies.map (· ++ ending)).flatten = bodies.map (· ++ ending) := by
  induction bodies with
  | nil => rfl
  | cons body more ih =>
    have apart : (more.map (· ++ ending)).flatten.head? ≠ some '\n' := by
      cases more with
      | nil => simp
      | cons next more =>
        have plain := clean next (by simp)
        cases next with
        | nil => exact absurd rfl (filled [] (by simp))
        | cons c next =>
          intro feeds
          have breaks := plain c List.mem_cons_self
          rw [show c = '\n' by simpa using feeds] at breaks
          exact absurd breaks (by decide)
    rw [List.map_cons, List.flatten_cons,
      lines_ended_append _ _ _ (clean body List.mem_cons_self) known fun _ => apart,
      ih (fun other member => clean other (List.mem_cons_of_mem body member))
        fun other member => filled other (List.mem_cons_of_mem body member)]

/-- Text behind a document fills up its last line, and what is left over has lines of its own. -/
theorem exists_lines_append (front back : List Char) (filled : front ≠ []) :
    ∃ init last taken rest, lines front = init ++ [last] ∧ back = taken ++ rest ∧
      lines (front ++ back) = init ++ (last ++ taken) :: lines rest := by
  fun_induction lines front with
  | case1 => exact absurd rfl filled
  | case2 more ih =>
    by_cases ended : more = []
    · subst ended
      exact ⟨[], ['\r', '\n'], [], back, rfl, rfl, rfl⟩
    · obtain ⟨init, last, taken, rest, split, parts, joined⟩ := ih ended
      refine ⟨['\r', '\n'] :: init, last, taken, rest, by rw [split]; rfl, parts, ?_⟩
      rw [List.cons_append, List.cons_append, lines, joined]
      rfl
  | case3 c more notPair breaks ih =>
    by_cases ended : more = []
    · subst ended
      -- a carriage return at the end takes the line feed behind it into its break
      by_cases pair : c = '\r' ∧ ∃ rest, back = '\n' :: rest
      · obtain ⟨rfl, rest, rfl⟩ := pair
        exact ⟨[], ['\r'], ['\n'], rest, rfl, rfl, rfl⟩
      · refine ⟨[], [c], [], back, by simp [lines], rfl, ?_⟩
        rw [List.singleton_append, lines_cons, if_pos breaks]
        · rfl
        · intro returns feeds
          obtain ⟨rest, feed⟩ := List.head?_eq_some_iff.1 feeds
          exact pair ⟨returns, rest, feed⟩
    · obtain ⟨init, last, taken, rest, split, parts, joined⟩ := ih ended
      refine ⟨[c] :: init, last, taken, rest, by rw [split]; rfl, parts, ?_⟩
      rw [List.cons_append, lines_cons, if_pos breaks, joined]
      · rfl
      · intro returns feeds
        cases more with
        | nil => exact ended rfl
        | cons d more => exact notPair more returns (by simp at feeds; rw [feeds])
  | case4 c more notPair plain ih =>
    have apart (rest : List Char) : c = '\r' → rest.head? ≠ some '\n' := by
      rintro rfl
      exact absurd rfl plain
    by_cases ended : more = []
    · subst ended
      cases after : lines back with
      | nil =>
        have none : back = [] := Decidable.byContradiction fun some => lines_ne_nil some after
        subst none
        exact ⟨[], [c], [], [], rfl, rfl, by simp [lines, plain, prepend]⟩
      | cons line others =>
        have whole := flatten_lines back
        have dropped := lines_drop back 1
        rw [after] at whole dropped
        refine ⟨[], [c], line, others.flatten, by simp [lines, prepend], whole.symm, ?_⟩
        rw [List.singleton_append, lines_cons _ _ (apart back), if_neg plain, after]
        simpa [prepend] using dropped.symm
    · obtain ⟨init, last, taken, rest, split, parts, joined⟩ := ih ended
      rw [List.cons_append, lines_cons _ _ (apart _), if_neg plain, joined, split]
      cases init with
      | nil => exact ⟨[], c :: last, taken, rest, rfl, parts, rfl⟩
      | cons first init => exact ⟨(c :: first) :: init, last, taken, rest, rfl, parts, rfl⟩

/-! The bodies of lines. -/

theorem lineBody_of_clean {body : List Char} (clean : ∀ c ∈ body, isLineBreak c = false) :
    lineBody body = body := by
  unfold lineBody
  split
  · rename_i rest shape
    have feed := clean '\n' (by rw [← List.mem_reverse, shape]; simp)
    cases feed
  · rename_i c rest notPair shape
    have plain := clean c (by rw [← List.mem_reverse, shape]; simp)
    rw [if_neg (by rw [plain]; exact Bool.false_ne_true)]
  · rename_i shape
    exact (List.reverse_eq_nil_iff.1 shape).symm

theorem lineBody_append_feed {body : List Char} (clean : ∀ c ∈ body, isLineBreak c = false) :
    lineBody (body ++ ['\n']) = body := by
  unfold lineBody
  rw [List.reverse_concat]
  split
  · rename_i rest shape
    have member : '\r' ∈ body := by
      rw [← List.mem_reverse, (List.cons.inj shape).2]
      exact List.mem_cons_self
    cases clean '\r' member
  · rename_i c rest notPair shape
    obtain ⟨rfl, rfl⟩ := List.cons.inj shape
    rw [if_pos (by decide), List.reverse_reverse]
  · rename_i shape
    cases shape

theorem lineBodies_append (front back : List Char) (complete : Complete front)
    (apart : front.getLast? = some '\r' → back.head? ≠ some '\n') :
    lineBodies (front ++ back) = lineBodies front ++ lineBodies back := by
  unfold lineBodies
  rw [lines_append front back complete apart, List.map_append]

theorem exists_last_line {text : List Char} {c : Char} (last : text.getLast? = some c)
    (plain : isLineBreak c = false) : ∃ front body, text = front ++ body ∧ Complete front ∧
      body ≠ [] ∧ ∀ d ∈ body, isLineBreak d = false := by
  have filled : text ≠ [] := by
    rintro rfl
    cases last
  obtain ⟨init, line, split⟩ := (List.eq_nil_or_concat (lines text)).resolve_left (lines_ne_nil filled)
  rw [List.concat_eq_append] at split
  have whole := flatten_lines text
  rw [split, List.flatten_concat] at whole
  have complete := complete_take text init.length (by rw [split]; simp)
  rw [split, List.take_left] at complete
  obtain ⟨body, ending, rfl, clean, breaks⟩ := exists_body_of_mem_lines text line (by rw [split]; simp)
  have bare : ending = [] := by
    rcases List.eq_nil_or_concat ending with none | ⟨rest, d, same⟩
    · exact none
    · rw [List.concat_eq_append] at same
      rw [← whole, same, ← List.append_assoc, ← List.append_assoc, List.getLast?_concat] at last
      have ends := breaks d (by rw [same]; simp)
      rw [Option.some.inj last, plain] at ends
      cases ends
  rw [bare, List.append_nil] at whole
  refine ⟨init.flatten, body, whole.symm, complete, ?_, clean⟩
  rintro rfl
  rw [List.append_nil] at whole
  rw [whole] at complete
  exact absurd (complete c last) (by rw [plain]; exact Bool.false_ne_true)

theorem lineBodies_append_feed {text : List Char} {c : Char} (last : text.getLast? = some c)
    (plain : isLineBreak c = false) : lineBodies (text ++ ['\n']) = lineBodies text := by
  obtain ⟨front, body, rfl, complete, filled, clean⟩ := exists_last_line last plain
  have apart (more : List Char) : (body ++ more).head? ≠ some '\n' := by
    cases body with
    | nil => exact absurd rfl filled
    | cons d body =>
      intro feed
      have dark := clean d List.mem_cons_self
      rw [Option.some.inj feed] at dark
      cases dark
  rw [List.append_assoc, lineBodies_append _ _ complete fun _ => apart _]
  have bare := lineBodies_append front body complete fun _ => by simpa using apart []
  rw [bare]
  have ended := lines_ended_append body ['\n'] [] clean (by decide) (by simp)
  rw [List.append_nil] at ended
  unfold lineBodies
  rw [ended, lines_body clean filled, List.map_cons, List.map_cons, lineBody_append_feed clean,
    lineBody_of_clean clean]
  rfl

/-! One kind of line break. -/

theorem unifyBreaks_of_not_mem {text : List Char} (free : '\r' ∉ text) : unifyBreaks text = text := by
  fun_induction unifyBreaks text with
  | case1 => rfl
  | case2 rest ih => simp at free
  | case3 c rest notPair ih =>
    rw [List.mem_cons, not_or] at free
    rw [if_neg (Ne.symm free.1), ih free.2]

theorem unifyBreaks_append (front back : List Char)
    (apart : front.getLast? = some '\r' → back.head? ≠ some '\n') :
    unifyBreaks (front ++ back) = unifyBreaks front ++ unifyBreaks back := by
  fun_induction unifyBreaks front with
  | case1 => rfl
  | case2 rest ih =>
    have later := ih (by
      intro last
      refine apart ?_
      rw [List.getLast?_cons, List.getLast?_cons, last]
      rfl)
    simp only [List.cons_append, unifyBreaks, later]
  | case3 c rest notPair ih =>
    have later := ih (by
      intro last
      refine apart ?_
      rw [List.getLast?_cons, last]
      rfl)
    rw [List.cons_append, unifyBreaks.eq_3, later, List.cons_append]
    intro more returns feeds
    cases rest with
    | nil => exact apart (by rw [returns]; rfl) (by rw [← List.nil_append back, feeds]; rfl)
    | cons d more => exact notPair more returns (by rw [(List.cons.inj feeds).1])

theorem getLast?_unifyBreaks (text : List Char) :
    (unifyBreaks text).getLast? = text.getLast?.map fun c => if c = '\r' then '\n' else c := by
  fun_induction unifyBreaks text with
  | case1 => rfl
  | case2 rest ih =>
    rw [List.getLast?_cons, ih, List.getLast?_cons, List.getLast?_cons]
    cases rest.getLast? <;> simp
  | case3 c rest notPair ih =>
    rw [List.getLast?_cons, ih, List.getLast?_cons]
    cases rest.getLast? <;> simp

end JuceWorkbench.Text
