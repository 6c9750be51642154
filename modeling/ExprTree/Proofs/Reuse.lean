import ExprTree.Proofs.Cursors

set_option autoImplicit false

/-!
# A reader can be used again

Between two attempts a cursor stands at a token, the last one at most, with no
expression being read; and the attempt that starts there sees only the tokens from
there on.  So every attempt ends as that of a new cursor over these tokens, and the
trees that are read lie one behind the other.  An attempt that reads no token leaves the
cursor as it was, and all later attempts fail as it did (`reader_reusable`).
-/

namespace ExprTree

/-! ## Attempts of a reader -/

namespace Reader

/-- What a tree was read from are its leaves. -/
theorem ahead_eq_of_read_eq_ok {r : Reader} {tree : Tree} (h : r.read.1.result = .ok tree) :
    r.stream.ahead = tree.leaves ++ r.read.2.stream.ahead := by
  cases hread : expression maxLevels 0 r.stream with
  | failed e rest =>
      rw [read_of_failed hread] at h
      cases h
  | done found rest =>
      unfold read at h ⊢
      rw [hread] at h ⊢
      dsimp only at h ⊢
      split at h
      · cases h
      · cases h
        exact (Expression.expression_reads hread).ahead_eq

/-- An attempt changes where a reader is and nothing else. -/
theorem eq_mk_read (mode : Mode) (s : Stream) :
    (mk mode s).read.2 = mk mode (mk mode s).read.2.stream := by
  unfold read
  cases expression maxLevels 0 s <;> rfl

end Reader

/-! ## Attempts with a cursor -/

/-- What holds of every attempt with a cursor over a list of tokens. -/
structure Call.Sound (mode : Mode) (tokens : List Token) (call : Call) : Prop where
  /-- No expression is being read after it, and the tokens are where they were. -/
  depth_eq : call.after.depth = 0
  tokens_eq : call.after.tokens = tokens
  /-- The position does not go back, and it is that of a token. -/
  position_le : call.before.position ≤ call.after.position
  position_lt : call.after.position < tokens.length
  /-- The result is that of a new cursor over the tokens that were left. -/
  result_eq : ∃ after,
    Move.read mode ⟨tokens.drop call.before.position, 0, 0⟩ = .ok (call.result, after)
  /-- The leaves of a tree are the tokens that were passed, and the last token is none of them. -/
  leaves_eq : ∀ tree, call.result = .ok tree →
    tree.leaves = tokens.extract call.before.position call.after.position
  not_endOfFile : ∀ tree, call.result = .ok tree → ∀ t ∈ tree.leaves, t.kind ≠ .endOfFile
  /-- Where no token was passed no tree was read. -/
  exists_error : call.after.position = call.before.position → ∃ e, call.result = .error e

/-- What holds of an attempt and any later one. -/
structure Call.Precedes (a b : Call) : Prop where
  position_le : a.after.position ≤ b.before.position
  /-- If the first passes no token, the later one ends as it did. -/
  result_eq : a.after.position = a.before.position → b.result = a.result

namespace Cursor

variable {c c' : Cursor} {s u : Stream}

/-- The tokens ahead that a cursor has moved past are those between the two positions. -/
theorem Reaches.ahead_eq (h : c.Reaches c' u) (hs : c.Shows s) :
    s.ahead = c.tokens.extract c.position c'.position ++ u.ahead ∧ u.finish = s.finish := by
  obtain ⟨passed, hpassed⟩ := Nat.exists_eq_add_of_le h.position_le
  have hbefore := hs.length_eq
  have hafter := h.shows.length_eq
  rw [h.tokens_eq, hbefore] at hafter
  have hle : passed ≤ s.ahead.length := by omega
  have hextract : c.tokens.extract c.position c'.position = s.ahead.take passed := by
    rw [List.extract_eq_take_drop, hs, hpassed, Nat.add_sub_cancel_left,
      List.take_append_of_le_length hle]
  have hmore : u.ahead ++ [.endOfFile u.finish] = s.ahead.drop passed ++ [.endOfFile s.finish] := by
    rw [← h.shows, h.tokens_eq, hpassed, ← List.drop_drop, hs, List.drop_append_of_le_length hle]
  obtain ⟨hahead, hlast⟩ := List.append_inj' hmore rfl
  rw [hextract, hahead, List.take_append_drop]
  refine ⟨rfl, ?_⟩
  have hspan := congrArg Token.span (List.singleton_inj.1 hlast)
  exact congrArg Span.start hspan

/-- Where the position is the same nothing has changed. -/
theorem Reaches.eq_of_position_eq (h : c.Reaches c' u) (hs : c.Shows s)
    (hposition : c'.position = c.position) : c' = c ∧ u = s := by
  obtain ⟨hahead, hfinish⟩ := h.ahead_eq hs
  rw [hposition, List.extract_eq_take_drop, Nat.sub_self, List.take_zero, List.nil_append] at hahead
  constructor
  · obtain ⟨tokens, position, depth⟩ := c
    obtain ⟨tokens', position', depth'⟩ := c'
    rw [mk.injEq]
    exact ⟨h.tokens_eq, hposition, h.depth_eq⟩
  · obtain ⟨ahead, finish⟩ := s
    obtain ⟨ahead', finish'⟩ := u
    rw [Stream.mk.injEq]
    exact ⟨hahead.symm, hfinish⟩

/-- A single attempt. -/
theorem exists_call (mode : Mode) (hdepth : c.depth = 0) (hs : c.Shows s)
    (hahead : ∀ t ∈ s.ahead, t.kind ≠ .endOfFile) :
    ∃ c', Move.read mode c = .ok ((Reader.mk mode s).read.1.result, c') ∧
      c.Reaches c' (Reader.mk mode s).read.2.stream ∧
      Call.Sound mode c.tokens ⟨c, (Reader.mk mode s).read.1.result, c'⟩ := by
  obtain ⟨c', hread, hreaches⟩ := Move.exists_read_eq mode hdepth hs
  refine ⟨c', hread, hreaches, ?_⟩
  obtain ⟨hpassed, hfinish⟩ := hreaches.ahead_eq hs
  -- The tokens that a tree was read from are those that were passed.
  have hleaves : ∀ tree, (Reader.mk mode s).read.1.result = .ok tree →
      tree.leaves = c.tokens.extract c.position c'.position := by
    intro tree htree
    have hread := Reader.ahead_eq_of_read_eq_ok htree
    rw [hpassed] at hread
    exact (List.append_cancel_right hread).symm
  constructor
  case depth_eq => exact hreaches.depth_eq.trans hdepth
  case tokens_eq => exact hreaches.tokens_eq
  case position_le => exact hreaches.position_le
  case position_lt =>
    have hlength := hreaches.shows.length_eq
    rw [hreaches.tokens_eq] at hlength
    change c'.position < c.tokens.length
    omega
  case result_eq =>
    have hfresh : (Cursor.mk (c.tokens.drop c.position) 0 0).Shows s := hs
    obtain ⟨after, hafter, _⟩ := Move.exists_read_eq mode rfl hfresh
    exact ⟨after, hafter⟩
  case leaves_eq => exact hleaves
  case not_endOfFile =>
    intro tree htree t ht
    rw [hleaves tree htree] at ht
    apply hahead
    rw [hpassed]
    exact List.mem_append_left _ ht
  case exists_error =>
    intro hposition
    change c'.position = c.position at hposition
    cases hresult : (Reader.mk mode s).read.1.result with
    | error e => exact ⟨e, rfl⟩
    | ok tree =>
        have hnil := hleaves tree hresult
        rw [hposition, List.extract_eq_take_drop, Nat.sub_self, List.take_zero] at hnil
        exact absurd hnil tree.leaves_ne_nil

theorem readTimes_succ_of_read_eq {mode : Mode} {result : Except SyntaxError Tree} {times : Nat}
    {calls : List Call} (h : Move.read mode c = .ok (result, c'))
    (hcalls : c'.readTimes mode times = .ok calls) :
    c.readTimes mode (times + 1) = .ok (⟨c, result, c'⟩ :: calls) := by
  rw [readTimes, h]
  change (do
    let calls ← c'.readTimes mode times
    return (⟨c, result, c'⟩ : Call) :: calls) = _
  rw [hcalls]
  rfl

/-- Attempts made with a cursor that an attempt leaves as it is are all the same. -/
theorem readTimes_of_read_eq {mode : Mode} {result : Except SyntaxError Tree}
    (h : Move.read mode c = .ok (result, c)) (times : Nat) :
    c.readTimes mode times = .ok (List.replicate times ⟨c, result, c⟩) := by
  induction times with
  | zero => rfl
  | succ times ih => exact readTimes_succ_of_read_eq h ih

/-- Any number of attempts. -/
theorem exists_calls (mode : Mode) (times : Nat) (hdepth : c.depth = 0) (hs : c.Shows s)
    (hahead : ∀ t ∈ s.ahead, t.kind ≠ .endOfFile) :
    ∃ calls, c.readTimes mode times = .ok calls ∧ calls.length = times ∧
      (∀ call ∈ calls, call.Sound mode c.tokens ∧ c.position ≤ call.before.position) ∧
      calls.Pairwise Call.Precedes ∧
      calls.map Call.result = ((Reader.mk mode s).readTimes times).map Attempt.result := by
  induction times generalizing c s with
  | zero => exact ⟨[], rfl, rfl, by simp, .nil, rfl⟩
  | succ times ih =>
      obtain ⟨c', hread, hreaches, hsound⟩ := exists_call mode hdepth hs hahead
      obtain ⟨hpassed, _⟩ := hreaches.ahead_eq hs
      have hmore : ∀ t ∈ (Reader.mk mode s).read.2.stream.ahead, t.kind ≠ .endOfFile := by
        intro t ht
        apply hahead
        rw [hpassed]
        exact List.mem_append_right _ ht
      obtain ⟨calls, hcalls, hlength, hall, hordered, hresults⟩ :=
        ih (hreaches.depth_eq.trans hdepth) hreaches.shows hmore
      refine ⟨_, readTimes_succ_of_read_eq hread hcalls, ?_, ?_, ?_, ?_⟩
      · rw [List.length_cons, hlength]
      · rw [List.forall_mem_cons]
        refine ⟨⟨hsound, Nat.le_refl _⟩, ?_⟩
        intro call hcall
        rw [← hreaches.tokens_eq]
        exact ⟨(hall call hcall).1, Nat.le_trans hreaches.position_le (hall call hcall).2⟩
      · refine List.Pairwise.cons ?_ hordered
        intro call hcall
        refine ⟨(hall call hcall).2, ?_⟩
        intro hposition
        obtain ⟨rfl, _⟩ := hreaches.eq_of_position_eq hs hposition
        -- The attempt is made again and again from where it started.
        rw [readTimes_of_read_eq hread, Except.ok.injEq] at hcalls
        rw [← hcalls] at hcall
        rw [List.eq_of_mem_replicate hcall]
      · rw [List.map_cons, hresults, ← Reader.eq_mk_read]
        rfl

end Cursor

/-- A reader of a source may be asked for an expression as often as one likes.  Done with an index
and a depth, that never breaks off, and the results are those of the reader.  After every attempt
the depth is zero and the index is that of a token, at most that of the end-of-file token, and not
less than before; the result is that of a new cursor over the tokens that were left; the leaves of a
tree are the tokens between the two indices, the end-of-file token not among them; and after an
attempt that leaves the index as it was, which fails, all others end in the same way. -/
theorem reader_reusable {mode : Mode} {source : String} {r : Reader}
    (h : Reader.ofString mode source = .ok r) (times : Nat) :
    (Token.significant source).getLast? = some (.endOfFile source.utf8ByteSize) ∧
    ∃ calls, Cursor.readTimes mode times ⟨Token.significant source, 0, 0⟩ = .ok calls ∧
      calls.length = times ∧ (∀ call ∈ calls, call.Sound mode (Token.significant source)) ∧
      calls.Pairwise Call.Precedes ∧
      calls.map Call.result = (r.readTimes times).map Attempt.result := by
  rw [Reader.ofString] at h
  cases hs : Stream.ofString source with
  | error e =>
      rw [hs] at h
      cases h
  | ok s =>
      rw [hs] at h
      cases h
      obtain ⟨_, _, htokens⟩ := Stream.ofString_eq_ok_iff.1 hs
      have hshows : (Cursor.mk (Token.significant source) 0 0).Shows s := htokens
      obtain ⟨calls, hcalls, hlength, hall, hordered, hresults⟩ :=
        Cursor.exists_calls mode times rfl hshows (Stream.kind_ne_of_ofString hs)
      refine ⟨?_, calls, hcalls, hlength, ?_, hordered, hresults⟩
      · rw [Token.significant_eq, List.getLast?_concat]
      · intro call hcall
        exact (hall call hcall).1

/-- Two expressions and an open parenthesis that nothing follows. -/
theorem reader_reusable_of_open_paren :
    ∃ calls, Cursor.readTimes .lenient 4 ⟨Token.significant "1 b (", 0, 0⟩ = .ok calls ∧
      calls.Pairwise Call.Precedes ∧
      calls.map Call.result =
        [.ok (.literal ⟨.number, ⟨0, 1⟩, some "1", .int 1⟩ (.int 1)),
          .ok (.name ⟨.identifier, ⟨2, 3⟩, some "b", .text "b"⟩),
          .error (.unexpectedToken .number .endOfFile ⟨5, 5⟩),
          .error (.unexpectedToken .number .endOfFile ⟨5, 5⟩)] := by
  have h : Reader.ofString .lenient "1 b (" = .ok ⟨.lenient,
      [⟨.number, ⟨0, 1⟩, some "1", .int 1⟩, ⟨.identifier, ⟨2, 3⟩, some "b", .text "b"⟩,
        ⟨.openParen, ⟨4, 5⟩, none, .absent⟩], 5⟩ := by rfl
  obtain ⟨_, calls, hcalls, _, _, hordered, hresults⟩ := reader_reusable h 4
  exact ⟨calls, hcalls, hordered, hresults⟩

end ExprTree
