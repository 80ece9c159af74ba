import MeshClient.Lib.Shift
import MeshClient.Reticulum.StackSettings

namespace MeshClient.Reticulum

variable {blocks : List IniBlock} {block : IniBlock} {current target : Nat}

def isAsciiAlphanumeric (c : Char) : Bool :=
  Js.isDigit c || ('a'.toNat ≤ c.toNat && c.toNat ≤ 'z'.toNat) || ('A'.toNat ≤ c.toNat && c.toNat ≤ 'Z'.toNat)

-- `lowercase` is `str::to_lowercase`.
def interfaceIdFromName (lowercase : Text → Text) (name : Text) : Text :=
  Trim.trim (· = '-') ((lowercase name).map fun c => if isAsciiAlphanumeric c then c else '-')

def insertAt (current target count : Nat) : Nat :=
  min (if current < target then target - 1 else target) count

def moveInterfaceBlockToIndex (lowercase : Text → Text) (io : Except String Unit) (file : Option Text) (id : Text)
    (target : Nat) : Except String Bool × Option Text :=
  match parseConfig (readConfig file) with
  | .error e => (.error e, file)
  | .ok parsed =>
      match parsed.interfaces.findIdx? fun b => interfaceIdFromName lowercase b.name = id with
      | none => (.error ("interface not found: " ++ String.ofList id), file)
      | some current =>
          if current = target then (.ok false, file)
          else
            let rest := parsed.interfaces.eraseIdx current
            let interfaces :=
              match parsed.interfaces[current]? with
              | some block => rest.insertIdx (insertAt current target rest.length) block
              | none => rest
            match writeConfig io (serializeConfig { parsed with interfaces }) with
            | .error e => (.error e, file)
            | .ok content => (.ok true, some content)

-- The block that was asked for stands where it was asked to, the others in their order.
structure Moved (before after : List IniBlock) (current target : Nat) (changed : Bool) : Prop where
  perm : after.Perm before
  placed : after[min target (before.length - 1)]? = before[current]?
  others : after.eraseIdx (min target (before.length - 1)) = before.eraseIdx current
  answered : changed = false ↔ after = before

-- Where a block goes right: not forward, or past the end over a block that differs from it,
-- or onto the place of an equal block with such a one between.
def LandsRight (blocks : List IniBlock) (block : IniBlock) (current target : Nat) : Prop :=
  target ≤ current ∨ (blocks.length ≤ target ∨ blocks[target]? = some block) ∧
    ∃ k, current < k ∧ k < target ∧ k < blocks.length ∧ blocks[k]? ≠ some block

theorem getElem?_erased {k : Nat} (hk : current ≤ k) : (blocks.eraseIdx current)[k]? = blocks[k + 1]? :=
  List.getElem?_eraseIdx_of_ge hk

theorem shifted_iff {j : Nat} (h : blocks[current]? = some block) (hcj : current ≤ j) (hj : j < blocks.length) :
    (blocks.eraseIdx current).insertIdx j block = blocks ↔
      ∀ k, current < k → k ≤ j → blocks[k]? = some block := by
  have hlt := (List.getElem?_eq_some_iff.mp h).1
  have hlen := List.length_eraseIdx_of_lt hlt
  have hsame := @Shift.insertIdx_eq_iff _ (blocks.eraseIdx current) block current j hcj (by omega)
  rw [Shift.insertIdx_eraseIdx_self h] at hsame
  rw [eq_comm, hsame]
  constructor
  · intro hall k hk hkj
    have hget := hall (k - 1) (by omega) (by omega)
    rwa [getElem?_erased (by omega), Nat.sub_add_cancel (by omega)] at hget
  · intro hall k hk hkj
    rw [getElem?_erased hk]
    exact hall (k + 1) (by omega) (by omega)

theorem moved_forward_iff (h : blocks[current]? = some block) (hforward : current < target) :
    Moved blocks ((blocks.eraseIdx current).insertIdx
        (insertAt current target (blocks.eraseIdx current).length) block) current target true ↔
      LandsRight blocks block current target := by
  have hlt := (List.getElem?_eq_some_iff.mp h).1
  have hlen := List.length_eraseIdx_of_lt hlt
  have hinsert : insertAt current target (blocks.eraseIdx current).length = min (target - 1) (blocks.length - 1) := by
    rw [insertAt, if_pos hforward, hlen]
  rw [hinsert]
  have hchanged := @shifted_iff blocks block current (min (target - 1) (blocks.length - 1)) h (by omega) (by omega)
  have hplaced := @Shift.placed_iff _ blocks block current (min (target - 1) (blocks.length - 1))
    (min target (blocks.length - 1)) h (by omega)
  have hsame : (blocks.eraseIdx current).insertIdx (min (target - 1) (blocks.length - 1)) block =
      (blocks.eraseIdx current).insertIdx (min target (blocks.length - 1)) block ↔
        blocks.length ≤ target ∨ blocks[target]? = some block := by
    rw [Shift.insertIdx_eq_iff (by omega) (by omega)]
    by_cases hpast : blocks.length ≤ target
    · exact iff_of_true (fun k hk hkj => by omega) (.inl hpast)
    · rw [or_iff_right hpast]
      constructor
      · intro hall
        have hget := hall (target - 1) (by omega) (by omega)
        rwa [getElem?_erased (by omega), Nat.sub_add_cancel (by omega)] at hget
      · intro hget k hk hkj
        obtain rfl : k = target - 1 := by omega
        rwa [getElem?_erased (by omega), Nat.sub_add_cancel (by omega)]
  constructor
  · rintro ⟨_, hget, hothers, hanswer⟩
    rw [h] at hget
    refine .inr ⟨hsame.mp (hplaced.mp ⟨hget, hothers⟩), ?_⟩
    by_contra hnone
    push Not at hnone
    have hequal := hchanged.mpr fun k hk hkj => hnone k hk (by omega) (by omega)
    exact absurd (hanswer.mpr hequal) (by simp)
  · rintro (hback | ⟨hplace, k, hk, hkt, hkn, hdiff⟩)
    · omega
    · obtain ⟨hget, hothers⟩ := hplaced.mpr (hsame.mpr hplace)
      refine ⟨Shift.perm_shift h (by omega), hget.trans h.symm, hothers, ?_⟩
      refine iff_of_false (by simp) fun hequal => ?_
      exact hdiff (hchanged.mp hequal k hk (by omega))

-- Backwards the block stands before the ones that it passes, none of which has its id.
theorem moved_back (h : blocks[current]? = some block) (hback : target < current)
    (hfirst : ∀ k < current, blocks[k]? ≠ some block) :
    Moved blocks ((blocks.eraseIdx current).insertIdx
      (insertAt current target (blocks.eraseIdx current).length) block) current target true := by
  have hlt := (List.getElem?_eq_some_iff.mp h).1
  have hlen := List.length_eraseIdx_of_lt hlt
  have hinsert : insertAt current target (blocks.eraseIdx current).length = target := by
    rw [insertAt, if_neg (by omega), hlen]
    omega
  have hmin : min target (blocks.length - 1) = target := by omega
  rw [hinsert]
  obtain ⟨hget, hothers⟩ := (@Shift.placed_iff _ blocks block current target target h (by omega)).mpr rfl
  refine ⟨Shift.perm_shift h (by omega), ?_, ?_, iff_of_false (by simp) fun hequal => ?_⟩
  · rw [hmin, hget, h]
  · rw [hmin, hothers]
  · exact hfirst target hback (hequal ▸ hget)

theorem moved_self (h : blocks[current]? = some block) : Moved blocks blocks current current false := by
  have hlt := (List.getElem?_eq_some_iff.mp h).1
  have hmin : min current (blocks.length - 1) = current := by omega
  exact ⟨List.Perm.refl _, by rw [hmin], by rw [hmin], by simp⟩

variable {P P' : ParsedConfig} {lowercase : Text → Text} {io : Except String Unit} {file : Option Text} {id : Text}

theorem writeConfig_eq_ok {content content' : Text} (h : writeConfig io content = .ok content') :
    content' = content ∧ ∃ Q, parseConfig content = .ok Q := by
  unfold writeConfig at h
  cases hparsed : parseConfig content with
  | error e =>
      rw [hparsed] at h
      cases h
  | ok Q =>
      rw [hparsed] at h
      cases io with
      | error e => cases h
      | ok u => exact ⟨(Except.ok.inj h).symm, Q, rfl⟩

-- Blocks in another order are read back as well as they were.
theorem reads_permuted {interfaces : List IniBlock} {s : Text} (hP : parseConfig s = .ok P) (hplain : PlainConfig P)
    (hperm : interfaces.Perm P.interfaces) :
    parseConfig (serializeConfig { P with interfaces }) = .ok { P with interfaces } := by
  have hread := readConfig_of_parse hP
  refine parse_serialize ?_ ?_
  · exact { hread with interfaces := fun b hb => hread.interfaces b (hperm.mem_iff.mp hb) }
  · exact { hplain with interfaces := fun b hb => hplain.interfaces b (hperm.mem_iff.mp hb) }

-- What a move that is answered does: it writes the blocks with the first one of that id at
-- another place, or nothing where the block is there already.
theorem move_cases {changed : Bool} (h : (moveInterfaceBlockToIndex lowercase io file id target).1 = .ok changed) :
    ∃ P current block, parseConfig (readConfig file) = .ok P ∧ P.interfaces[current]? = some block ∧
      interfaceIdFromName lowercase block.name = id ∧
      (∀ k < current, ∀ b, P.interfaces[k]? = some b → interfaceIdFromName lowercase b.name ≠ id) ∧
      ((changed = false ∧ current = target ∧ (moveInterfaceBlockToIndex lowercase io file id target).2 = file) ∨
        (changed = true ∧ current ≠ target ∧ (moveInterfaceBlockToIndex lowercase io file id target).2 =
          some (serializeConfig { P with
            interfaces := (P.interfaces.eraseIdx current).insertIdx
              (insertAt current target (P.interfaces.eraseIdx current).length) block }))) := by
  unfold moveInterfaceBlockToIndex at h ⊢
  cases hP : parseConfig (readConfig file) with
  | error e => simp [hP] at h
  | ok P =>
      simp only [hP] at h ⊢
      cases hfind : P.interfaces.findIdx? (fun b => interfaceIdFromName lowercase b.name = id) with
      | none => simp [hfind] at h
      | some current =>
          obtain ⟨hlt, hid, hfirst⟩ := List.findIdx?_eq_some_iff_getElem.mp hfind
          have hget : P.interfaces[current]? = some P.interfaces[current] := List.getElem?_eq_getElem hlt
          refine ⟨P, current, P.interfaces[current], rfl, hget, by simpa using hid, ?_, ?_⟩
          · intro k hk b hb
            obtain ⟨hkl, rfl⟩ := List.getElem?_eq_some_iff.mp hb
            simpa using hfirst k hk
          simp only [hfind, hget] at h ⊢
          by_cases hsame : current = target
          · rw [if_pos hsame] at h ⊢
            exact .inl ⟨(Except.ok.inj h).symm, hsame, rfl⟩
          · rw [if_neg hsame] at h ⊢
            refine .inr ?_
            cases hwrite : writeConfig io (serializeConfig { P with
                interfaces := (P.interfaces.eraseIdx current).insertIdx
                  (insertAt current target (P.interfaces.eraseIdx current).length) P.interfaces[current] }) with
            | error e => simp [hwrite] at h
            | ok content =>
                simp only [hwrite] at h ⊢
                exact ⟨(Except.ok.inj h).symm, hsame, congrArg some (writeConfig_eq_ok hwrite).1⟩

def blocksFile (text : String) : Option Text := some ("[interfaces]\n" ++ text).toList

end MeshClient.Reticulum
