import ClassOutline.Proofs.CommandLine.Runs
import ClassOutline.Proofs.Image.Entries
import ClassOutline.Proofs.Outline.Listing
import Mathlib.Data.Nat.Digits.Defs
import Mathlib.Data.String.Basic

/-!
# What is printed of a class

The block of a class file does not depend on the order in which the entries of its map come. It has
one line for each signature, that of the last method declared with it: first the methods without
code, by signature, then those with code in the order of their declaration (`Arranged`). So no two
methods with code are ever compared by their signatures, and since a line number has five digits at
most, all signatures start in the same column. Main statement: `Outline.lines_of_decode`.
-/

namespace ClassOutline

namespace Image

/-! ## Declarations that count -/

/-- A method in its place, after which no method is declared with the same signature. -/
structure Wins (image : Image) (row : MethodInfo × Nat) : Prop where
  declared : image.methods.items[row.2]? = some row.1
  last : ∀ later ∈ image.methods.items.drop (row.2 + 1),
    later.signature image.pool ≠ row.1.signature image.pool

/-- The entry of a method in its place. -/
def listed (image : Image) (row : MethodInfo × Nat) : Listing.Entry :=
  (row.1.signature image.pool, row.1.position (Int32.ofNat row.2))

/-- The methods that are printed: those without code, and those with code. -/
structure Arranged (image : Image) (codeless coded : List (MethodInfo × Nat)) : Prop where
  mem_codeless_iff : ∀ row, row ∈ codeless ↔ image.Wins row ∧ ¬row.1.HasCode
  mem_coded_iff : ∀ row, row ∈ coded ↔ image.Wins row ∧ row.1.HasCode
  /-- Methods without code are in the order of their signatures, compared by code points, all of
  which differ. -/
  codeless_ascending : codeless.Pairwise fun first second =>
    first.1.signature image.pool < second.1.signature image.pool
  /-- Methods with code are in the order of their declaration. -/
  coded_ascending : coded.Pairwise fun first second => first.2 < second.2
  /-- Every signature occurs once. -/
  once : ((codeless ++ coded).map fun row => row.1.signature image.pool).Perm
    (image.methods.items.map (MethodInfo.signature image.pool)).dedup

/-- A text at the right end of its column, which is `width` characters wide. -/
structure RightAligned (width : Nat) (text column : String) : Prop where
  length_eq : column.length = width
  toList_eq : ∃ blanks, column.toList = List.replicate blanks ' ' ++ text.toList

namespace MethodInfo

/-- What is printed for the line of a method: the least of the line numbers that count, or a
dash. -/
def lineText (info : MethodInfo) : String :=
  (info.lines.min?.map fun line => toString line.toNat).getD "-"

def column (info : MethodInfo) : String :=
  String.ofList (List.replicate (5 - info.lineText.length) ' ' ++ info.lineText.toList)

/-- What is printed in front of a signature. -/
def margin (info : MethodInfo) : String :=
  "    " ++ info.column ++ "  "

def printed (pool : Pool) (info : MethodInfo) : String :=
  info.margin ++ info.signature pool

end MethodInfo

/-- What is printed for a file: its path, and the methods. -/
def printed (image : Image) (path : String) (rows : List (MethodInfo × Nat)) : List String :=
  (path ++ ":") :: rows.map fun row => row.1.printed image.pool

variable {image : Image} {first second row : MethodInfo × Nat}

/-- The place of a method with code is its own; others have none. -/
theorem Wins.toInt_order (h : image.Wins row) :
    (image.listed row).2.order.toInt = if row.1.HasCode then (row.2 : Int) else -1 :=
  (row.1.exact_method (index_lt h.declared) image.pool).place

/-- Methods in the same place are the same. -/
theorem Wins.eq_of_snd_eq (hfirst : image.Wins first) (hsecond : image.Wins second)
    (h : first.2 = second.2) : first = second := by
  have hinfo := hfirst.declared
  rw [h, hsecond.declared] at hinfo
  exact Prod.ext (Option.some.inj hinfo).symm h

/-- The place of a method with code is in no other entry. -/
theorem Wins.eq_of_order_eq (hfirst : image.Wins first) (hsecond : image.Wins second)
    (hcode : first.1.HasCode)
    (h : (image.listed first).2.order = (image.listed second).2.order) : first = second := by
  have hplace := hfirst.toInt_order
  rw [h, hsecond.toInt_order, if_pos hcode] at hplace
  by_cases hcode' : second.1.HasCode
  · rw [if_pos hcode'] at hplace
    exact hfirst.eq_of_snd_eq hsecond (by omega)
  · rw [if_neg hcode'] at hplace
    omega

/-- After a method with the signature of one that counts nothing else is declared with it. -/
theorem Wins.not_lt_of_signature_eq (hfirst : image.Wins first) (hsecond : image.Wins second)
    (h : first.1.signature image.pool = second.1.signature image.pool) : ¬first.2 < second.2 := by
  intro hlt
  have hmem : second.1 ∈ image.methods.items.drop (first.2 + 1) := by
    refine List.mem_of_getElem? (i := second.2 - (first.2 + 1)) ?_
    rw [List.getElem?_drop, Nat.add_sub_cancel' hlt]
    exact hsecond.declared
  exact hfirst.last second.1 hmem h.symm

/-! ## The map of positions -/

/-- The outline has the signatures of the image. -/
theorem map_signature_outline (image : Image) :
    image.outline.methods.map Method.signature =
      image.methods.items.map (MethodInfo.signature image.pool) := by
  refine List.ext_getElem? fun index => ?_
  rw [List.getElem?_map, List.getElem?_map, getElem?_methods_outline, Option.map_map]
  rfl

theorem forall_drop_outline_iff {count : Nat} {signature : String} :
    (∀ later ∈ image.outline.methods.drop count, later.signature ≠ signature) ↔
      ∀ later ∈ image.methods.items.drop count, later.signature image.pool ≠ signature := by
  have hdrop := congrArg (List.drop count) image.map_signature_outline
  rw [← List.map_drop, ← List.map_drop] at hdrop
  have hmem := iff_of_eq (congrArg (signature ∈ ·) hdrop)
  simp only [List.mem_map] at hmem
  simpa using not_congr hmem

/-- The map of positions has the entries of the methods that count. -/
theorem getElem?_positions_outline_eq_some_iff {signature : String} {position : Position} :
    image.outline.positions[signature]? = some position ↔
      ∃ row, image.Wins row ∧ image.listed row = (signature, position) := by
  simp only [Outline.getElem?_positions, Option.map_eq_some_iff, Outline.find?_eq_some_iff,
    getElem?_methods_outline, forall_drop_outline_iff]
  constructor
  · rintro ⟨_, ⟨index, ⟨info, hinfo, rfl⟩, rfl, hlater⟩, rfl⟩
    exact ⟨(info, index), ⟨hinfo, hlater⟩, rfl⟩
  · rintro ⟨⟨info, index⟩, ⟨hinfo, hlater⟩, hentry⟩
    obtain ⟨rfl, rfl⟩ := Prod.ext_iff.mp hentry
    exact ⟨_, ⟨index, ⟨info, hinfo, rfl⟩, rfl, hlater⟩, rfl⟩

/-! ## The order of the entries -/

namespace Arranged

variable {codeless coded : List (MethodInfo × Nat)} (h : image.Arranged codeless coded)
include h

theorem mem_append_iff : row ∈ codeless ++ coded ↔ image.Wins row := by
  rw [List.mem_append, h.mem_codeless_iff, h.mem_coded_iff, ← and_or_left]
  exact and_iff_left (Decidable.not_or_of_imp id)

theorem nodup_keys : (((codeless ++ coded).map image.listed).map Prod.fst).Nodup := by
  rw [List.map_map]
  exact h.once.nodup_iff.mpr (List.nodup_dedup _)

/-- The entries of the map are those of the methods that are printed. -/
theorem toList_positions_perm :
    image.outline.positions.toList.Perm ((codeless ++ coded).map image.listed) := by
  have hkeys : (image.outline.positions.toList.map Prod.fst).Nodup := by
    rw [Std.TreeMap.map_fst_toList_eq_keys]
    exact Std.TreeMap.nodup_keys
  refine (List.perm_ext_iff_of_nodup hkeys.of_map h.nodup_keys.of_map).mpr ?_
  rintro ⟨signature, position⟩
  simp only [Std.TreeMap.mem_toList_iff_getElem?_eq_some, List.mem_map, h.mem_append_iff]
  exact getElem?_positions_outline_eq_some_iff

theorem pairwise_isLE :
    ((codeless ++ coded).map image.listed).Pairwise fun first second =>
      (Listing.order first second).isLE := by
  have hcodeless : ∀ row ∈ codeless, (image.listed row).2.order.toInt = -1 := by
    intro row hrow
    obtain ⟨hwins, hcode⟩ := (h.mem_codeless_iff row).mp hrow
    rw [hwins.toInt_order, if_neg hcode]
  have hcoded : ∀ row ∈ coded, (image.listed row).2.order.toInt = row.2 := by
    intro row hrow
    obtain ⟨hwins, hcode⟩ := (h.mem_coded_iff row).mp hrow
    rw [hwins.toInt_order, if_pos hcode]
  rw [List.pairwise_map, List.pairwise_append]
  refine ⟨?_, ?_, ?_⟩
  · refine h.codeless_ascending.imp_of_mem fun hfirst hsecond hlt => ?_
    refine Listing.isLE_order_of_lt (Int32.toInt.inj ?_) hlt
    rw [hcodeless _ hfirst, hcodeless _ hsecond]
  · refine h.coded_ascending.imp_of_mem fun hfirst hsecond hlt => ?_
    refine Listing.isLE_order_of_toInt_lt ?_
    rw [hcoded _ hfirst, hcoded _ hsecond]
    omega
  · intro first hfirst second hsecond
    refine Listing.isLE_order_of_toInt_lt ?_
    rw [hcodeless first hfirst, hcoded second hsecond]
    omega

/-- In whatever order the entries come, they are printed in this one. -/
theorem sort_eq {entries : List Listing.Entry}
    (hperm : entries.Perm image.outline.positions.toList) :
    Listing.sort entries = (codeless ++ coded).map image.listed :=
  Listing.sort_eq_of_perm (hperm.trans h.toList_positions_perm) h.nodup_keys h.pairwise_isLE

end Arranged

/-! ## There is an arrangement -/

instance (image : Image) (row : MethodInfo × Nat) : Decidable (image.Wins row) :=
  decidable_of_iff (image.methods.items[row.2]? = some row.1 ∧
      ∀ later ∈ image.methods.items.drop (row.2 + 1),
        later.signature image.pool ≠ row.1.signature image.pool)
    ⟨fun h => ⟨h.1, h.2⟩, fun h => ⟨h.declared, h.last⟩⟩

/-- The methods that count, in the order of their declaration. -/
def winners (image : Image) : List (MethodInfo × Nat) :=
  image.methods.items.zipIdx.filter fun row => image.Wins row

/-- Those without code, by signature. -/
def codeless (image : Image) : List (MethodInfo × Nat) :=
  (image.winners.filter fun row => ¬row.1.HasCode).mergeSort fun first second =>
    first.1.signature image.pool ≤ second.1.signature image.pool

/-- Those with code, in the order of their declaration. -/
def coded (image : Image) : List (MethodInfo × Nat) :=
  image.winners.filter fun row => row.1.HasCode

theorem mem_winners_iff : row ∈ image.winners ↔ image.Wins row := by
  rw [winners, List.mem_filter, decide_eq_true_eq, List.mem_zipIdx_iff_getElem?]
  exact and_iff_right_of_imp Wins.declared

theorem pairwise_winners (image : Image) :
    image.winners.Pairwise fun first second => first.2 < second.2 := by
  refine List.Pairwise.filter _ (List.pairwise_map.mp ?_)
  rw [List.zipIdx_map_snd]
  exact List.pairwise_lt_range'

theorem codeless_append_coded_perm (image : Image) :
    (image.codeless ++ image.coded).Perm image.winners := by
  refine ((List.mergeSort_perm _ _).append_right _).trans (List.perm_append_comm.trans ?_)
  simpa [coded] using List.filter_append_perm (fun row => decide row.1.HasCode) image.winners

/-- Of methods that count no two have the same signature. -/
theorem nodup_signature_winners (image : Image) :
    (image.winners.map fun row => row.1.signature image.pool).Nodup := by
  refine List.pairwise_map.mpr ((pairwise_winners image).imp_of_mem ?_)
  intro first second hfirst hsecond hlt hsame
  rw [mem_winners_iff] at hfirst hsecond
  exact hfirst.not_lt_of_signature_eq hsecond hsame hlt

theorem mem_signature_winners_iff {signature : String} :
    (signature ∈ image.winners.map fun row => row.1.signature image.pool) ↔
      signature ∈ image.methods.items.map (MethodInfo.signature image.pool) := by
  rw [← map_signature_outline, ← Outline.mem_positions_iff, Std.TreeMap.mem_iff_isSome_getElem?,
    Option.isSome_iff_exists]
  simp [getElem?_positions_outline_eq_some_iff, mem_winners_iff, listed]

theorem pairwise_codeless (image : Image) :
    image.codeless.Pairwise fun first second =>
      first.1.signature image.pool < second.1.signature image.pool := by
  have hle : image.codeless.Pairwise fun first second =>
      first.1.signature image.pool ≤ second.1.signature image.pool := by
    refine (List.pairwise_mergeSort ?_ ?_ _).imp of_decide_eq_true
    · intro first second third h h'
      exact decide_eq_true (le_trans (of_decide_eq_true h) (of_decide_eq_true h'))
    · intro first second
      simpa using le_total _ _
  have hne : image.codeless.Pairwise fun first second =>
      first.1.signature image.pool ≠ second.1.signature image.pool := by
    have hnodup := image.codeless_append_coded_perm.map fun row => row.1.signature image.pool
    rw [List.map_append] at hnodup
    exact List.pairwise_map.mp (hnodup.nodup_iff.mpr image.nodup_signature_winners).of_append_left
  exact (hle.and hne).imp fun h => lt_of_le_of_ne h.1 h.2

/-- The methods that count can be arranged. -/
theorem arranged (image : Image) : image.Arranged image.codeless image.coded where
  mem_codeless_iff row := by simp [codeless, mem_winners_iff]
  mem_coded_iff row := by simp [coded, mem_winners_iff]
  codeless_ascending := image.pairwise_codeless
  coded_ascending := (pairwise_winners image).filter _
  once := by
    have hperm := image.codeless_append_coded_perm.map fun row => row.1.signature image.pool
    refine hperm.trans ((List.perm_ext_iff_of_nodup image.nodup_signature_winners
      (List.nodup_dedup _)).mpr fun signature => ?_)
    rw [mem_signature_winners_iff, List.mem_dedup]

/-! ## Printed lines -/

/-- A line number has five digits at most. -/
theorem length_repr_toNat_le (line : UInt16) : line.toNat.repr.length ≤ 5 := by
  have hlt := line.toNat_lt
  exact Nat.repr_length line.toNat 5 (by omega) (by omega)

namespace MethodInfo

theorem length_lineText_le (info : MethodInfo) : info.lineText.length ≤ 5 := by
  rw [lineText]
  cases info.lines.min? with
  | none => decide
  | some line => exact length_repr_toNat_le line

theorem rightAligned_column (info : MethodInfo) :
    RightAligned 5 info.lineText info.column where
  length_eq := by
    have hle := info.length_lineText_le
    rw [column, String.length_ofList, List.length_append, List.length_replicate,
      String.length_toList]
    omega
  toList_eq := ⟨_, String.toList_ofList⟩

theorem length_margin (info : MethodInfo) : info.margin.length = 11 := by
  rw [margin, String.length_append, String.length_append, info.rightAligned_column.length_eq]
  rfl

/-- Digits, dashes and blanks are no line breaks. -/
theorem count_margin (info : MethodInfo) : info.margin.toList.count '\n' = 0 := by
  have htext : '\n' ∉ info.lineText.toList := by
    rw [lineText]
    cases info.lines.min? with
    | none => decide
    | some line =>
      intro hmem
      rw [Option.map_some, Option.getD_some, Nat.toString_eq_repr, Nat.toList_repr] at hmem
      exact absurd (Nat.isDigit_of_mem_toDigits (by decide) (by decide) hmem) (by decide)
  obtain ⟨blanks, hcolumn⟩ := info.rightAligned_column.toList_eq
  rw [margin, String.toList_append, String.toList_append, hcolumn, List.count_eq_zero]
  simp [htext]

theorem count_printed (pool : Pool) (info : MethodInfo) :
    (info.printed pool).toList.count '\n' = (info.signature pool).toList.count '\n' := by
  rw [printed, String.toList_append, List.count_append, info.count_margin, Nat.zero_add]

end MethodInfo

/-- As many lines are printed as there are methods, and one more; other line breaks come from the
path and the signatures. -/
theorem count_printed (image : Image) (path : String) (rows : List (MethodInfo × Nat)) :
    (String.join ((image.printed path rows).map (· ++ "\n"))).toList.count '\n' =
      path.toList.count '\n' + 1 +
        (rows.map fun row => (row.1.signature image.pool).toList.count '\n' + 1).sum := by
  have hcolon : (":" : String).toList.count '\n' = 0 := by decide
  have hrows : (rows.map fun row => (row.1.printed image.pool).toList.count '\n' + 1) =
      rows.map fun row => (row.1.signature image.pool).toList.count '\n' + 1 :=
    List.map_congr_left fun row _ => congrArg (· + 1) (row.1.count_printed image.pool)
  rw [Listing.count_lineBreak, printed, List.map_cons, List.sum_cons, List.map_map,
    String.toList_append, List.count_append, hcolon, Nat.add_zero, ← hrows]
  rfl

theorem splitOn_printed (image : Image) (path : String) (rows : List (MethodInfo × Nat))
    (hpath : '\n' ∉ path.toList)
    (hrows : ∀ row ∈ rows, '\n' ∉ (row.1.signature image.pool).toList) :
    (String.join ((image.printed path rows).map (· ++ "\n"))).toList.splitOn '\n' =
      (image.printed path rows).map String.toList ++ [[]] := by
  refine Listing.splitOn_lineBreak ?_
  rw [printed, List.forall_mem_cons, List.forall_mem_map]
  refine ⟨by simpa using hpath, fun row hrow => ?_⟩
  rw [← List.count_eq_zero, row.1.count_printed]
  exact List.count_eq_zero.mpr (hrows row hrow)

theorem lineText_position (info : MethodInfo) (order : Int32) :
    Listing.lineText (info.position order) = info.lineText := by
  rw [MethodInfo.lineText]
  by_cases hcode : info.HasCode
  · rw [MethodInfo.position_eq_of_hasCode hcode, Position.ofLines]
    cases info.lines.min? with
    | none => rfl
    | some line =>
      simp only [Listing.lineText, Position.ofLine, toInt_ofNat_toNat, if_true]
      rfl
  · rw [MethodInfo.position_eq_of_not_hasCode hcode, MethodInfo.lines_eq_nil_of_not_hasCode hcode]
    rfl

theorem lineOf_listed (image : Image) (row : MethodInfo × Nat) :
    Listing.lineOf (image.listed row) = row.1.printed image.pool := by
  rw [Listing.lineOf, listed, lineText_position, MethodInfo.printed, MethodInfo.margin,
    MethodInfo.column, ← Listing.toList_padLeft, String.ofList_toList]

/-- In whatever order the entries come, the lines that are printed are those of the arrangement. -/
theorem Arranged.lines_eq {codeless coded : List (MethodInfo × Nat)}
    (h : image.Arranged codeless coded) (path : String) {entries : List Listing.Entry}
    (hperm : entries.Perm image.outline.positions.toList) :
    Listing.lines path entries = image.printed path (codeless ++ coded) := by
  rw [Listing.lines, h.sort_eq hperm, List.map_map]
  exact congrArg _ (List.map_congr_left fun row _ => image.lineOf_listed row)

end Image

/-! ## Decoded classes -/

namespace Outline

/-- Of whatever is decoded: the methods that count can be arranged so that those without code come
first, by signature, and then those with code, by declaration. Their entries are those of the map,
and in whatever order these come, what is printed of a file is its path and then a line for each
method of the arrangement, each followed by a line break; this is all that a run over the file
prints. So there are as many line breaks as lines, but for those in the path and in the signatures,
and where there are none of these, what stands between the line breaks are the lines. Two entries
have the same place only if neither method has code. A source line is printed at the right end of
five columns, with four blanks before and two after it. -/
theorem lines_of_decode {bytes : List UInt8} {outline : Outline}
    (hdecode : (decode bytes).result = .ok outline) :
    ∃ (image : Image) (rest : List UInt8), bytes = image.bytes ++ rest ∧ image.Valid ∧
      ∃ codeless coded : List (Image.MethodInfo × Nat), image.Arranged codeless coded ∧
        outline.positions.toList.Perm ((codeless ++ coded).map image.listed) ∧
        (∀ path entries, entries.Perm outline.positions.toList →
          Listing.lines path entries = image.printed path (codeless ++ coded) ∧
          Listing.block path entries =
            String.join ((image.printed path (codeless ++ coded)).map (· ++ "\n"))) ∧
        (∀ (logger : Logger) (files : FileSystem) (path : String) (steps : List ReadStep),
          files path = .ok steps → ReadStep.readToEnd steps = .ok bytes →
            (CommandLine.runWith logger files [path]).stdout =
              String.join ((image.printed path (codeless ++ coded)).map (· ++ "\n"))) ∧
        (∀ path,
          (String.join ((image.printed path (codeless ++ coded)).map (· ++ "\n"))).toList.count
              '\n' =
            path.toList.count '\n' + 1 + ((codeless ++ coded).map fun row =>
              (row.1.signature image.pool).toList.count '\n' + 1).sum) ∧
        (∀ path, '\n' ∉ path.toList →
          (∀ row ∈ codeless ++ coded, '\n' ∉ (row.1.signature image.pool).toList) →
            (String.join ((image.printed path (codeless ++ coded)).map (· ++ "\n"))).toList.splitOn
                '\n' =
              (image.printed path (codeless ++ coded)).map String.toList ++ [[]]) ∧
        (∀ first ∈ codeless ++ coded, ∀ second ∈ codeless ++ coded, first ≠ second →
          (image.listed first).2.order = (image.listed second).2.order →
            ¬first.1.HasCode ∧ ¬second.1.HasCode) ∧
        ∀ row ∈ codeless ++ coded,
          Image.RightAligned 5 row.1.lineText row.1.column ∧ row.1.margin.length = 11 := by
  obtain ⟨image, rest, hbytes, hvalid, rfl⟩ := Image.exists_valid_of_decode hdecode
  have harranged := image.arranged
  have hblock : ∀ path entries, entries.Perm image.outline.positions.toList →
      Listing.block path entries =
        String.join ((image.printed path (image.codeless ++ image.coded)).map (· ++ "\n")) := by
    intro path entries hperm
    rw [Listing.block, harranged.lines_eq path hperm]
  refine ⟨image, rest, hbytes, hvalid, image.codeless, image.coded, harranged,
    harranged.toList_positions_perm, ?_, ?_, ?_, ?_, ?_, ?_⟩
  · intro path entries hperm
    exact ⟨harranged.lines_eq path hperm, hblock path entries hperm⟩
  · intro logger files path steps hopen hread
    have hdecodes : CommandLine.Decodes (files path) image.outline :=
      ⟨steps, bytes, hopen, hread, hdecode⟩
    rw [CommandLine.stdout_of_decodes hdecodes, hblock path _ (.refl _)]
  · intro path
    exact image.count_printed path _
  · intro path
    exact image.splitOn_printed path _
  · intro first hfirst second hsecond hne hsame
    rw [harranged.mem_append_iff] at hfirst hsecond
    constructor
    · intro hcode
      exact hne (hfirst.eq_of_order_eq hsecond hcode hsame)
    · intro hcode
      exact hne (hsecond.eq_of_order_eq hfirst hcode hsame.symm).symm
  · intro row _
    exact ⟨row.1.rightAligned_column, row.1.length_margin⟩

/-- A class file with five methods: `a` with code, `c` with the lines 65535 and 300, `b` without
code, `d` with code, and `a` again without code. -/
def fiveMethods : List UInt8 :=
  [0xCA, 0xFE, 0xBA, 0xBE, 0, 0, 0, 0x34, 0, 8,
    1, 0, 1, 0x61, 1, 0, 3, 0x28, 0x29, 0x56, 1, 0, 4, 0x43, 0x6F, 0x64, 0x65,
    1, 0, 15, 0x4C, 0x69, 0x6E, 0x65, 0x4E, 0x75, 0x6D, 0x62, 0x65, 0x72, 0x54, 0x61, 0x62, 0x6C,
    0x65, 1, 0, 1, 0x62, 1, 0, 1, 0x63, 1, 0, 1, 0x64,
    0, 0, 0, 0, 0, 0, 0, 0, 0, 0, 0, 5,
    0, 1, 0, 1, 0, 2, 0, 1, 0, 3, 0, 0, 0, 12, 0, 1, 0, 1, 0, 0, 0, 0, 0, 0, 0, 0,
    0, 1, 0, 6, 0, 2, 0, 1, 0, 3, 0, 0, 0, 28, 0, 1, 0, 1, 0, 0, 0, 0, 0, 0, 0, 1,
    0, 4, 0, 0, 0, 10, 0, 2, 0, 0, 0xFF, 0xFF, 0, 4, 1, 44,
    4, 1, 0, 5, 0, 2, 0, 0,
    0, 1, 0, 7, 0, 2, 0, 1, 0, 3, 0, 0, 0, 12, 0, 1, 0, 1, 0, 0, 0, 0, 0, 0, 0, 0,
    4, 1, 0, 1, 0, 2, 0, 0,
    0, 0]

def fiveMethodsOutline : Outline where
  methods :=
    [{ order := 0, flags := .truncate 1, name := "a", descriptor := "()V",
       signature := "void a()", position := .unlined 0 },
      { order := 1, flags := .truncate 1, name := "c", descriptor := "()V",
        signature := "void c()", position := .ofLine 300 1 },
      { order := 2, flags := .truncate 0x401, name := "b", descriptor := "()V",
        signature := "void b()", position := .absent },
      { order := 3, flags := .truncate 1, name := "d", descriptor := "()V",
        signature := "void d()", position := .unlined 3 },
      { order := 4, flags := .truncate 0x401, name := "a", descriptor := "()V",
        signature := "void a()", position := .absent }]

def fiveMethodsText : String :=
  "C.class:\n        -  void a()\n        -  void b()\n      300  void c()\n" ++
    "        -  void d()\n"

theorem block_fiveMethodsOutline :
    Listing.block "C.class" fiveMethodsOutline.positions.toList = fiveMethodsText := by
  have hsort : Listing.sort fiveMethodsOutline.positions.toList =
      [("void a()", .absent), ("void b()", .absent), ("void c()", .ofLine 300 1),
        ("void d()", .unlined 3)] :=
    Listing.sort_eq_of_perm (by decide +kernel) (by decide) (by decide)
  rw [Listing.block, Listing.lines, hsort]
  rfl

theorem lines_of_decode_fiveMethods :
    (decode fiveMethods).result = .ok fiveMethodsOutline ∧
      Listing.block "C.class" fiveMethodsOutline.positions.toList.reverse = fiveMethodsText ∧
      (CommandLine.run (fun _ => .ok [.chunk fiveMethods]) ["C.class"]).stdout =
        fiveMethodsText := by
  have hdecode : (decode fiveMethods).result = .ok fiveMethodsOutline := by decide +kernel
  obtain ⟨image, _, -, -, codeless, coded, -, -, hblock, hstdout, -⟩ := lines_of_decode hdecode
  have htext : String.join ((image.printed "C.class" (codeless ++ coded)).map (· ++ "\n")) =
      fiveMethodsText := by
    rw [← (hblock "C.class" _ (.refl _)).2, block_fiveMethodsOutline]
  refine ⟨hdecode, ?_, ?_⟩
  · rw [(hblock "C.class" _ (List.reverse_perm _)).2, htext]
  · rw [CommandLine.run, hstdout .standard _ "C.class" [.chunk fiveMethods] rfl rfl, htext]

end Outline

end ClassOutline
