import Mathlib.Data.List.DropRight
import Skirmish.Arena.Picture
import Skirmish.Proofs.Arena.Obedience
import Skirmish.Proofs.Arena.Rules

/-!
# The picture read back

Who stands where can be read off the picture of a board: lines are what stands
between line breaks, cells what stands between tabs, and the spaces at the end
of a cell are not part of what it says.

The text of a tile has no blank in it, which is why neither the line breaks, nor
the tabs, nor the spaces can be mistaken for a part of it.

Main statement: the picture of a board that can be reached has a line for each
row and a cell for each tile, the cells of a column are as wide as the longest
text in it, a cell says who stands on the tile, and therefore two boards of one
size look the same only if the same units stand on the same tiles
(`picture_read_back`).
-/

namespace Skirmish.Arena

open Skirmish.Random

/-! ## Reading -/

/-- What stands between separators. -/
def pieces (separator : Char) (text : String) : List String :=
  (text.split separator).toList.map (·.copy)

/-- A text without the spaces at its end. -/
def withoutSpaces (text : String) : String := String.ofList (text.toList.rdropWhile (· == ' '))

/-- The cell in a row and a column of a picture. -/
def cellOf? (picture : String) (l : Location) : Option String :=
  (pieces '\n' picture)[l.row]?.bind fun line ↦ (pieces '\t' line)[l.col]?

/-- No space, tab or line break is in a text. -/
def Solid (text : String) : Prop := ∀ c ∈ text.toList, c.isWhitespace = false

theorem pieces_intercalate {c : Char} {texts : List String} (hne : texts ≠ [])
    (h : ∀ t ∈ texts, c ∉ t.toList) :
    pieces c ((String.singleton c).intercalate texts) = texts := by
  rw [pieces, String.toList_split_intercalate h, if_neg hne]

/-- A character of a joined text comes from the separator or from a piece. -/
theorem mem_toList_intercalate {c : Char} {separator : String} {texts : List String}
    (h : c ∈ (separator.intercalate texts).toList) :
    c ∈ separator.toList ∨ ∃ t ∈ texts, c ∈ t.toList := by
  induction texts with
  | nil => simp at h
  | cons t ts ih =>
    cases ts with
    | nil => exact .inr ⟨t, by simp, by simpa using h⟩
    | cons u us =>
      simp only [String.intercalate_cons_cons, String.toList_append, List.mem_append] at h
      obtain (ht | hs) | hrest := h
      · exact .inr ⟨t, by simp, ht⟩
      · exact .inl hs
      · obtain hs | ⟨v, hv, hc⟩ := ih hrest
        · exact .inl hs
        · exact .inr ⟨v, List.mem_cons_of_mem t hv, hc⟩

/-! ## Padding -/

theorem toList_padded (width : Nat) (cell : String) :
    (padded width cell).toList = cell.toList ++ List.replicate (width - cell.length) ' ' := by
  simp [padded]

theorem length_padded {width : Nat} {cell : String} (h : cell.length ≤ width) :
    (padded width cell).length = width := by
  rw [padded, String.length_append, String.length_ofList, List.length_replicate]
  omega

/-- Padding adds spaces only. -/
theorem not_mem_padded {width : Nat} {cell : String} (h : Solid cell) {c : Char}
    (hc : c.isWhitespace = true) (hs : c ≠ ' ') : c ∉ (padded width cell).toList := by
  rw [toList_padded, List.mem_append]
  rintro (hm | hm)
  · rw [h c hm] at hc
    exact Bool.false_ne_true hc
  · exact hs (List.eq_of_mem_replicate hm)

theorem withoutSpaces_padded {width : Nat} {cell : String} (h : Solid cell) :
    withoutSpaces (padded width cell) = cell := by
  have hkeep : cell.toList.rdropWhile (· == ' ') = cell.toList := by
    refine List.rdropWhile_eq_self_iff.2 fun hne hlast ↦ ?_
    have hspace : (cell.toList.getLast hne).isWhitespace = true := by
      rw [eq_of_beq hlast]
      rfl
    rw [h _ (List.getLast_mem hne)] at hspace
    exact Bool.false_ne_true hspace
  have hdrop : ∀ n, (cell.toList ++ List.replicate n ' ').rdropWhile (· == ' ') = cell.toList := by
    intro n
    induction n with
    | zero => simpa using hkeep
    | succ n ih =>
      rw [List.replicate_succ', ← List.append_assoc, List.rdropWhile_concat_pos _ _ _ rfl, ih]
  rw [withoutSpaces, toList_padded, hdrop, String.ofList_toList]

theorem solid_freeCell : Solid freeCell := by
  simp [Solid, freeCell]

theorem isDigit_of_mem_repr {n : Nat} {c : Char} (h : c ∈ n.repr.toList) : c.isDigit = true := by
  rw [Nat.toList_repr] at h
  exact Nat.isDigit_of_mem_toDigits (by decide) (by decide) h

theorem solid_repr (n : Nat) : Solid n.repr := by
  intro c hc
  have hdigit := isDigit_of_mem_repr hc
  simp only [Char.isWhitespace, Bool.or_eq_false_iff, decide_eq_false_iff_not]
  refine ⟨⟨⟨?_, ?_⟩, ?_⟩, ?_⟩ <;> rintro rfl <;> exact Bool.false_ne_true hdigit

theorem repr_ne_freeCell (n : Nat) : n.repr ≠ freeCell := by
  intro h
  have hdigit : 'X'.isDigit = true := isDigit_of_mem_repr (n := n) (by simp [h, freeCell])
  exact Bool.false_ne_true hdigit

/-! ## Widths -/

/-- The widths of the columns of a table after the rows that are listed. -/
theorem foldl_widen (cell : Nat → Nat → String) (cols : Nat) (rows : List Nat)
    (width : Nat → Nat) :
    (rows.map fun row ↦ (List.range cols).map (cell row)).foldl widen
        ((List.range cols).map width) =
      (List.range cols).map fun col ↦
        rows.foldl (fun w row ↦ max w (cell row col).length) (width col) := by
  induction rows generalizing width with
  | nil => rfl
  | cons row rows ih =>
    have hstep : widen ((List.range cols).map width) ((List.range cols).map (cell row)) =
        (List.range cols).map fun col ↦ max (width col) (cell row col).length := by
      rw [widen, List.zipWith_map, List.zipWith_self]
    rw [List.map_cons, List.foldl_cons, hstep, ih]
    rfl

/-- The greatest length, or the one to start with. -/
theorem foldl_max_spec (length : Nat → Nat) (rows : List Nat) (start : Nat) :
    let width := rows.foldl (fun w row ↦ max w (length row)) start
    start ≤ width ∧ (∀ row ∈ rows, length row ≤ width) ∧
      (width = start ∨ ∃ row ∈ rows, length row = width) := by
  induction rows generalizing start with
  | nil => simp
  | cons row rows ih =>
    obtain ⟨hstart, hall, hone⟩ := ih (max start (length row))
    simp only [List.foldl_cons, List.forall_mem_cons, List.exists_mem_cons_iff]
    refine ⟨by omega, ⟨by omega, hall⟩, ?_⟩
    obtain hwidth | hrow := hone
    · omega
    · exact .inr (.inr hrow)

/-! ## The picture -/

namespace Board

variable {ρ : Type}

/-- The unit that stands at a location, going by the list of units. -/
def standing? (b : Board ρ) (l : Location) : Option Fighter := b.units.find? (·.location == l)

/-- The text of a tile of the board. -/
def textAt (b : Board ρ) (l : Location) : String := b.cellText (b.tiles.at? l)

/-- The width of a column. -/
def columnWidth (b : Board ρ) (col : Nat) : Nat :=
  (List.range b.torus.rows).foldl (fun w row ↦ max w (b.textAt ⟨row, col⟩).length) 0

theorem solid_textAt (b : Board ρ) (l : Location) : Solid (b.textAt l) := by
  unfold textAt cellText
  split
  · exact solid_repr _
  · exact solid_freeCell

theorem length_textAt_le (b : Board ρ) {l : Location} (h : b.torus.Contains l) :
    (b.textAt l).length ≤ b.columnWidth l.col :=
  (foldl_max_spec (fun row ↦ (b.textAt ⟨row, l.col⟩).length) _ 0).2.1 l.row
    (List.mem_range.2 h.1)

/-- No column is wider than it has to be. -/
theorem exists_length_textAt (b : Board ρ) (col : Nat) :
    ∃ row < b.torus.rows, (b.textAt ⟨row, col⟩).length = b.columnWidth col := by
  obtain ⟨-, hall, hzero | ⟨row, hrow, hlength⟩⟩ :=
    foldl_max_spec (fun row ↦ (b.textAt ⟨row, col⟩).length) (List.range b.torus.rows) 0
  · -- where the width is 0, every text is as long as that
    have hfirst := hall 0 (List.mem_range.2 b.torus.rows_pos)
    rw [hzero] at hfirst
    exact ⟨0, b.torus.rows_pos, (Nat.le_zero.1 hfirst).trans hzero.symm⟩
  · exact ⟨row, List.mem_range.1 hrow, hlength⟩

/-- A line of the picture. -/
def line (b : Board ρ) (row : Nat) : String :=
  "\t".intercalate ((List.range b.torus.cols).map fun col ↦
    padded (b.columnWidth col) (b.textAt ⟨row, col⟩))

theorem picture_eq (b : Board ρ) :
    b.picture = "\n".intercalate ((List.range b.torus.rows).map b.line) := by
  have hcells : b.cellTexts = (List.range b.torus.rows).map fun row ↦
      (List.range b.torus.cols).map fun col ↦ b.textAt ⟨row, col⟩ := by
    rw [cellTexts, Tiles.rows, List.map_map]
    refine List.map_congr_left fun row _ ↦ ?_
    rw [Function.comp_apply, List.map_map]
    rfl
  have hwidths : b.cellTexts.foldl widen (List.replicate b.torus.cols 0) =
      (List.range b.torus.cols).map b.columnWidth := by
    have hstart : List.replicate b.torus.cols 0 = (List.range b.torus.cols).map fun _ ↦ 0 := by
      rw [List.map_const', List.length_range]
    rw [hcells, hstart, foldl_widen (fun row col ↦ b.textAt ⟨row, col⟩)]
    rfl
  rw [picture, hwidths, hcells, List.map_map]
  refine congrArg _ (List.map_congr_left fun row _ ↦ ?_)
  rw [Function.comp_apply, List.zipWith_map, List.zipWith_self]
  rfl

theorem pieces_picture (b : Board ρ) :
    pieces '\n' b.picture = (List.range b.torus.rows).map b.line := by
  rw [picture_eq]
  refine pieces_intercalate (by simpa using b.torus.rows_pos.ne') ?_
  intro line hline hbreak
  obtain ⟨row, -, rfl⟩ := List.mem_map.1 hline
  obtain htab | ⟨cell, hcell, hbreak⟩ := mem_toList_intercalate hbreak
  · simp at htab
  · obtain ⟨col, -, rfl⟩ := List.mem_map.1 hcell
    exact not_mem_padded (b.solid_textAt _) rfl (by decide) hbreak

theorem pieces_line (b : Board ρ) (row : Nat) :
    pieces '\t' (b.line row) = (List.range b.torus.cols).map fun col ↦
      padded (b.columnWidth col) (b.textAt ⟨row, col⟩) := by
  refine pieces_intercalate (by simpa using b.torus.cols_pos.ne') ?_
  intro cell hcell
  obtain ⟨col, -, rfl⟩ := List.mem_map.1 hcell
  exact not_mem_padded (b.solid_textAt _) rfl (by decide)

theorem cellOf?_picture (b : Board ρ) {l : Location} (h : b.torus.Contains l) :
    cellOf? b.picture l = some (padded (b.columnWidth l.col) (b.textAt l)) := by
  simp [cellOf?, pieces_picture, pieces_line, h.1, h.2]

/-- What is on the tiles is all that matters for the picture. -/
theorem picture_congr {ρ' : Type} {b : Board ρ} {b' : Board ρ'} (htorus : b'.torus = b.torus)
    (h : ∀ l, b.torus.Contains l → b'.textAt l = b.textAt l) : b'.picture = b.picture := by
  have hwidth : ∀ col < b.torus.cols, b'.columnWidth col = b.columnWidth col := by
    intro col hcol
    rw [columnWidth, htorus]
    refine List.foldl_ext _ _ _ fun width row hrow ↦ ?_
    rw [h ⟨row, col⟩ ⟨List.mem_range.1 hrow, hcol⟩]
  have hline : ∀ row < b.torus.rows, b'.line row = b.line row := by
    intro row hrow
    rw [line, htorus]
    refine congrArg _ (List.map_congr_left fun col hcol ↦ ?_)
    have hcol := List.mem_range.1 hcol
    rw [hwidth col hcol, h ⟨row, col⟩ ⟨hrow, hcol⟩]
  rw [picture_eq, picture_eq, htorus]
  exact congrArg _ (List.map_congr_left fun row hrow ↦ hline row (List.mem_range.1 hrow))

/-- Pictures of boards of one size are the same only if the texts are. -/
theorem textAt_eq_of_picture_eq {ρ' : Type} {b : Board ρ} {b' : Board ρ'}
    (htorus : b'.torus = b.torus) (h : b'.picture = b.picture) {l : Location}
    (hl : b.torus.Contains l) : b'.textAt l = b.textAt l := by
  have hcell := cellOf?_picture b' (htorus ▸ hl)
  rw [h, cellOf?_picture b hl, Option.some_inj] at hcell
  rw [← withoutSpaces_padded (b.solid_textAt l), hcell, withoutSpaces_padded (b'.solid_textAt l)]

/-! ## Who stands where -/

namespace Coherent

variable {b : Board ρ}

theorem standing?_eq_some_iff (h : b.Coherent) {l : Location} {u : Fighter} :
    b.standing? l = some u ↔ u ∈ b.units ∧ u.location = l := by
  have hlocations : (b.units.map (·.location)).Nodup :=
    (List.Nodup.of_map _ h.serials_nodup).map_on fun u hu v hv ↦ h.eq_of_location_eq hu hv
  exact find?_eq_some_iff_of_nodup hlocations

theorem at?_eq (h : b.Coherent) {l : Location} (hl : b.torus.Contains l) :
    b.tiles.at? l = (b.standing? l).map (·.serial) := by
  refine Option.ext fun id ↦ ?_
  rw [h.at?_iff l hl id, Option.map_eq_some_iff]
  simp only [h.standing?_eq_some_iff, and_assoc]
  exact exists_congr fun u ↦ and_congr_right fun _ ↦ and_comm

theorem textAt_eq (h : b.Coherent) {l : Location} (hl : b.torus.Contains l) :
    b.textAt l = (b.standing? l).elim freeCell (toString ·.serial) := by
  rw [textAt, h.at?_eq hl, cellText]
  cases hu : b.standing? l with
  | none => rfl
  | some u =>
    have hself : b.unit? u.serial = some u :=
      h.unit?_eq_some_iff.2 ⟨(h.standing?_eq_some_iff.1 hu).1, rfl⟩
    simp [hself]

/-- Numbers of units are told apart from each other and from free tiles. -/
theorem textAt_eq_iff {ρ' : Type} {b' : Board ρ'} (h : b.Coherent) (h' : b'.Coherent)
    {l : Location} (hl : b.torus.Contains l) (hl' : b'.torus.Contains l) :
    b'.textAt l = b.textAt l ↔
      (b'.standing? l).map (·.serial) = (b.standing? l).map (·.serial) := by
  have hinj : ∀ {m n : Nat}, m.repr = n.repr ↔ m = n := by
    intro m n
    refine ⟨fun e ↦ ?_, congrArg _⟩
    have hdigits : Nat.toDigits 10 m = Nat.toDigits 10 n := by
      rw [← Nat.toList_repr, e, Nat.toList_repr]
    rw [← Nat.ofDigitChars_ten_toDigits (n := m), hdigits, Nat.ofDigitChars_ten_toDigits]
  rw [h.textAt_eq hl, h'.textAt_eq hl']
  cases b.standing? l <;> cases b'.standing? l <;>
    simp [repr_ne_freeCell, (repr_ne_freeCell _).symm, hinj]

end Coherent

end Board

/-! ## Boards that can be reached -/

namespace Scene

variable {ρ : Type} [WordSource ρ] {torus : Torus} {unitLimit : Nat} {unitHp : Int64} {s : Scene ρ}

theorem rules_apply (s : Scene ρ) (o : Operation) : (o.apply s).board.rules = s.board.rules := by
  cases o with
  | addPlayer player =>
    simp only [Operation.apply, Board.addPlayer]
    split <;> rfl
  | spawn player l => exact Board.rules_spawn _ _ _
  | spawnAdjacent player l => exact Board.rules_spawnAdjacent _ _ _
  | spawnInitial => exact Board.rules_spawnEach _ _
  | despawn unit => exact Board.rules_despawn _ _
  | move unit => exact Board.rules_move _ _
  | attack attacker amount => exact Board.rules_attack _ _ _
  | beginTurn => exact Board.rules_beginTurn _
  | endTurn => exact Board.rules_endTurn _
  | removeEliminated => exact Board.rules_removeEliminated _
  | perform unit command args => exact rules_perform s unit command args
  | change unit c => exact Board.rules_updateUnit _ _ _

theorem Reachable.rules_eq (h : s.Reachable torus unitLimit unitHp) :
    s.board.rules = (torus, unitLimit, unitHp) := by
  induction h with
  | empty rng commentary => rfl
  | step _ o _ ih => exact (rules_apply _ o).trans ih

theorem Reachable.torus_eq (h : s.Reachable torus unitLimit unitHp) : s.board.torus = torus :=
  congrArg (·.1) h.rules_eq

/-- In every scene that can be reached:

* the picture of the board has a line for each row and, in each line, a cell for
  each column;
* the cells of a column are all as long as the longest text in it, spaces at the
  end of cells left out;
* without those spaces a cell is the number of the unit that stands on the tile,
  in decimal, or `X` if the tile is free, which is when nobody stands on it;
* another board of this size that can be reached, be it under other limits and
  with another generator, has the same picture exactly if the same units stand
  on the same tiles. -/
theorem picture_read_back (h : s.Reachable torus unitLimit unitHp) :
    (pieces '\n' s.board.picture).length = torus.rows ∧
    (∀ line ∈ pieces '\n' s.board.picture, (pieces '\t' line).length = torus.cols) ∧
    (∀ col < torus.cols, ∃ width,
      (∀ row < torus.rows, ∃ cell, cellOf? s.board.picture ⟨row, col⟩ = some cell ∧
        cell.length = width ∧ (withoutSpaces cell).length ≤ width) ∧
      ∃ row < torus.rows, ∃ cell, cellOf? s.board.picture ⟨row, col⟩ = some cell ∧
        (withoutSpaces cell).length = width) ∧
    (∀ l, torus.Contains l →
      (cellOf? s.board.picture l).map withoutSpaces =
        some ((s.board.standing? l).elim "X" (toString ·.serial)) ∧
      s.board.tiles.isFree l = (s.board.standing? l).isNone) ∧
    ∀ (ρ' : Type) [WordSource ρ'] (s' : Scene ρ') (unitLimit' : Nat) (unitHp' : Int64),
      s'.Reachable torus unitLimit' unitHp' →
      (s'.board.picture = s.board.picture ↔ ∀ l, torus.Contains l →
        (s'.board.standing? l).map (·.serial) = (s.board.standing? l).map (·.serial)) := by
  have hb := h.coherent
  obtain rfl := h.torus_eq
  refine ⟨?_, ?_, ?_, ?_, ?_⟩
  · rw [Board.pieces_picture, List.length_map, List.length_range]
  · intro line hline
    rw [Board.pieces_picture] at hline
    obtain ⟨row, -, rfl⟩ := List.mem_map.1 hline
    rw [Board.pieces_line, List.length_map, List.length_range]
  · intro col hcol
    obtain ⟨widest, hwidest, hlength⟩ := s.board.exists_length_textAt col
    refine ⟨s.board.columnWidth col, fun row hrow ↦ ?_, widest, hwidest, ?_⟩
    · have hle := s.board.length_textAt_le (l := ⟨row, col⟩) ⟨hrow, hcol⟩
      refine ⟨_, Board.cellOf?_picture _ ⟨hrow, hcol⟩, length_padded hle, ?_⟩
      rwa [withoutSpaces_padded (s.board.solid_textAt _)]
    · refine ⟨_, Board.cellOf?_picture _ ⟨hwidest, hcol⟩, ?_⟩
      rwa [withoutSpaces_padded (s.board.solid_textAt _)]
  · intro l hl
    rw [Board.cellOf?_picture _ hl, Option.map_some, withoutSpaces_padded (s.board.solid_textAt _),
      hb.textAt_eq hl, Tiles.isFree, hb.at?_eq hl, Option.isNone_map]
    exact ⟨rfl, rfl⟩
  · intro ρ' _ s' unitLimit' unitHp' h'
    have htorus := h'.torus_eq
    have hiff : ∀ l, s.board.torus.Contains l → (s'.board.textAt l = s.board.textAt l ↔
        (s'.board.standing? l).map (·.serial) = (s.board.standing? l).map (·.serial)) :=
      fun l hl ↦ hb.textAt_eq_iff h'.coherent hl (htorus ▸ hl)
    constructor
    · intro hpicture l hl
      exact (hiff l hl).1 (Board.textAt_eq_of_picture_eq htorus hpicture hl)
    · intro hsame
      exact Board.picture_congr htorus fun l hl ↦ (hiff l hl).2 (hsame l hl)

/-- With two units in the first row, the picture has a line for them, and the
picture of an empty board is another one. -/
theorem picture_read_back_standoff :
    standoff.board.picture = "1\t2\tX\nX\tX\tX\nX\tX\tX" ∧
      (pieces '\n' standoff.board.picture).length = 3 ∧
      (cellOf? standoff.board.picture ⟨0, 1⟩).map withoutSpaces = some "2" ∧
      (Board.empty ⟨3, 3, by decide, by decide⟩ 7 5 (Xoshiro.ofSeed 1)).picture ≠
        standoff.board.picture := by
  obtain ⟨hlines, -, -, hcells, hsame⟩ := picture_read_back reachable_standoff
  refine ⟨by decide +kernel, hlines, (hcells ⟨0, 1⟩ (by decide)).1.trans (by decide +kernel), ?_⟩
  intro heq
  have := (hsame Xoshiro ⟨_, .new false false false⟩ 7 5 (.empty _ _)).1 heq ⟨0, 0⟩ (by decide)
  revert this
  decide +kernel

end Scene

end Skirmish.Arena
