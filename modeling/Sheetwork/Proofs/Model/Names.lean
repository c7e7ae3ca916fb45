import Sheetwork.Proofs.Model.Fixpoint
/-
  Models: which functions of a program have one name. A name keeps the address of a cell, but of its sheet only an
  identifier, and of two functions with one name only the last one is computed. So every formula is computed in its
  own cell exactly if sheets of one identifier have the same code at one address (`nodup_names_iff`).
-/

open List

namespace Sheetwork.Model

open Text Compiled

theorem collapse_eq_self {keep : Char → Bool} {s : List Char} (h : ∀ c ∈ s, keep c = true) (inside : Bool) :
    collapse keep inside s = s := by
  induction s generalizing inside with
  | nil => rfl
  | cons c s ih => rw [collapse, if_pos (h c mem_cons_self), ih fun d hd => h d (mem_cons_of_mem _ hd)]

theorem identifier_address {p : Position} (hp : p.OnSheet) : identifier p.address = p.address := by
  have hplain : ∀ c ∈ p.address.toList, (isPlain c || decide (c = '_')) = true := by
    intro c hc
    rw [Position.toList_address, mem_append] at hc
    rcases hc with hc | hc
    · simp [isPlain, isAsciiLetter, Column.capitals_letters _ c hc]
    · simp [isPlain, isAsciiDigit_of_mem_natL hc]
  have hname : plainName (fun c => isPlain c || c = '_') ['_'] p.address = p.address.toList := by
    rw [plainName, collapse_eq_self hplain, stripWhileL_eq_self]
    intro c hc
    rw [Bool.eq_false_iff, ne_eq, contains_iff_mem, mem_singleton]
    rintro rfl
    exact p.not_mem_address (by decide) hc
  obtain ⟨c, cs, hletters⟩ := exists_cons_of_length_pos (Column.length_letters hp.col_pos hp.col_le).1
  have hcapital : isAsciiUpper c = true := Column.capitals_letters p.col c (hletters ▸ mem_cons_self)
  have hchars : p.address.toList = c :: (cs ++ natL p.row) := by rw [Position.toList_address, hletters, cons_append]
  rw [hchars] at hname
  rw [identifier, hname]
  dsimp only
  rw [if_neg (by rw [isDigit_capital hcapital]; decide), ← hchars, String.ofList_toList]

theorem functionName_eq_iff {p q : Place} {a b : Position} (ha : a.OnSheet) (hb : b.OnSheet) (hp : p.cell = a.address)
    (hq : q.cell = b.address) : functionName p = functionName q ↔
      p.cell = q.cell ∧ identifier p.sheet = identifier q.sheet := by
  have hname : ∀ {p : Place} {a : Position}, a.OnSheet → p.cell = a.address → (functionName p).toList =
      "calc_".toList ++ ((identifier p.sheet).toList ++ '_' :: p.cell.toList) := by
    intro p a ha hp
    rw [functionName, hp, identifier_address ha]
    simp only [String.toList_append, append_assoc]
    rfl
  have hunderscore : ∀ {p : Place} {a : Position}, p.cell = a.address → '_' ∉ p.cell.toList := fun hp =>
    hp ▸ Position.not_mem_address (by decide) _
  rw [← String.toList_inj, hname ha hp, hname hb hq, append_right_inj, append_cons_inj (hunderscore hp)
    (hunderscore hq), String.toList_inj, String.toList_inj, and_comm]

namespace Program

variable {b : Blueprint} {cs : List Compiled}

theorem name_eq (h : ofBlueprint b = .ok cs) {c : Compiled} (hc : c ∈ cs) : c.name = functionName c.place := by
  obtain ⟨formulas, compiled, -, hmade, hperm, -⟩ := exists_formulas h
  obtain ⟨f, -, hf⟩ := exists_of_mem_right hmade (hperm.mem_iff.1 hc)
  obtain ⟨hplace, hname, -⟩ := of_ofFormula hf
  rw [hname, hplace]

/-- The functions of a program have names of their own exactly if no two sheets of one identifier have
formulas at one address, and each formula is computed in its cell exactly if those have the same code. -/
theorem nodup_names_iff (h : ofBlueprint b = .ok cs)
    (hcell : ∀ c ∈ cs, ∃ p : Position, p.OnSheet ∧ c.place.cell = p.address) :
    ((cs.map name).Nodup ↔ ∀ c ∈ cs, ∀ d ∈ cs, c.place.cell = d.place.cell →
        identifier c.place.sheet = identifier d.place.sheet → c.place.sheet = d.place.sheet) ∧
      (effective cs = cs.map (fun c => (c.place, c.expr)) ↔ ∀ c ∈ cs, ∀ d ∈ cs, c.place.cell = d.place.cell →
        identifier c.place.sheet = identifier d.place.sheet → c.expr = d.expr) := by
  have hname : ∀ c ∈ cs, ∀ d ∈ cs, (c.name = d.name ↔
      c.place.cell = d.place.cell ∧ identifier c.place.sheet = identifier d.place.sheet) := by
    intro c hc d hd
    obtain ⟨p, hp, hpc⟩ := hcell c hc
    obtain ⟨q, hq, hqd⟩ := hcell d hd
    rw [name_eq h hc, name_eq h hd, functionName_eq_iff hp hq hpc hqd]
  have hplaces := nodup_places h
  constructor
  · rw [nodup_map_iff_inj_on (Nodup.of_map _ hplaces)]
    constructor
    · intro hinj c hc d hd hcell hsheet
      rw [hinj c hc d hd ((hname c hc d hd).2 ⟨hcell, hsheet⟩)]
    · intro hsheets c hc d hd heq
      obtain ⟨hcell, hsheet⟩ := (hname c hc d hd).1 heq
      refine inj_on_of_nodup_map hplaces hc hd ?_
      rw [Place.mk.injEq]
      exact ⟨hsheets c hc d hd hcell hsheet, hcell⟩
  · rw [effective_eq_iff]
    constructor
    · intro hexpr c hc d hd hcell hsheet
      exact hexpr c hc d hd ((hname c hc d hd).2 ⟨hcell, hsheet⟩)
    · intro hexpr c hc d hd heq
      obtain ⟨hcell, hsheet⟩ := (hname c hc d hd).1 heq
      exact hexpr c hc d hd hcell hsheet

theorem nodup_names_iff_two : (twoProgram.map name).Nodup ↔ ∀ c ∈ twoProgram, ∀ d ∈ twoProgram,
    c.place.cell = d.place.cell → identifier c.place.sheet = identifier d.place.sheet → c.place.sheet = d.place.sheet :=
  (nodup_names_iff ofBlueprint_two fun c hc => by
    obtain ⟨name, p, e, f, hstands⟩ := stands_of_mem sound_two ofBlueprint_two hc
    exact ⟨p, hstands.onSheet, congrArg Place.cell hstands.place⟩).1

end Program

end Sheetwork.Model
