import MatrixOdbc.Driver.ColumnNumber
import MatrixOdbc.Foundations.Loop

/-!
# The list of hosts

`parse_host_list` of `driver/connect.cc` scans a list of hosts for commas and colons. The text
between a colon and the next comma is the port of the host. It is read by `atol`, which takes any
text for a number, and only an empty text and numbers that are no port are refused.
-/

namespace MatrixOdbc.Driver

open WhileLoop

/-- `Srv_host_detail`. -/
structure SrvHostDetail where
  name : List UInt8
  port : ℕ
  deriving DecidableEq

/-- `find_first_of` from a position on; `none` is `npos`. -/
def findFirstOf (hosts chars : List UInt8) (pos : ℕ) : Option ℕ :=
  ((hosts.drop pos).findIdx? (· ∈ chars)).map (pos + ·)

/-- `substr` from a position up to another one. -/
def hostSubstr (hosts : List UInt8) (pos : ℕ) (stop : Option ℕ) : List UInt8 :=
  match stop with
  | some stop => (hosts.drop pos).take (stop - pos)
  | none => hosts.drop pos

/-- `Invalid port value in `. -/
def invalidPort (hosts : List UInt8) : List UInt8 :=
  "Invalid port value in ".toUTF8.toList ++ hosts

/-- The local variables of the loop. -/
structure HostScan where
  posI : ℕ
  list : List SrvHostDetail

/-- The port text is refused. -/
def portRefused (tmpPort : List UInt8) : Bool :=
  let val := strtoll tmpPort
  (val == 0 && tmpPort.length == 0) || 65535 < val || val < 0

/-- The end of the body: the entry is appended, and the loop goes on behind a comma. -/
def nextHost (scan : HostScan) (detail : SrvHostDetail) (posF : Option ℕ) :
    Step HostScan (Except (List UInt8) (List SrvHostDetail)) :=
  let list := scan.list ++ [detail]
  match posF with
  | some posF => .next ⟨posF + 1, list⟩
  | none => .done (.ok list)

/-- One evaluation of the body of `parse_host_list`. -/
def hostBody (hosts : List UInt8) (defaultPort : ℕ) (scan : HostScan) :
    Step HostScan (Except (List UInt8) (List SrvHostDetail)) :=
  let posF := findFirstOf hosts [0x2c, 0x3a] scan.posI
  let name := hostSubstr hosts scan.posI posF
  match posF with
  | some posF =>
    if hosts[posF]? = some 0x3a then
      let posI := posF + 1
      let posF := findFirstOf hosts [0x2c] posI
      let tmpPort := hostSubstr hosts posI posF
      if portRefused tmpPort then .done (.error (invalidPort hosts))
      else nextHost scan ⟨name, (strtoll tmpPort).toNat % 2 ^ 16⟩ posF
    else nextHost scan ⟨name, defaultPort⟩ (some posF)
  | none => nextHost scan ⟨name, defaultPort⟩ none

/-- `parse_host_list` has a result. -/
def ParsesHostList (hosts : List UInt8) (defaultPort : ℕ)
    (result : Except (List UInt8) (List SrvHostDetail)) : Prop :=
  Returns (hostBody hosts defaultPort) ⟨0, []⟩ result

/-- The host of an item. -/
def itemHost (item : List UInt8) : List UInt8 := item.takeWhile (· ≠ 0x3a)

/-- The text of the port of an item, if it has one. -/
def itemPort (item : List UInt8) : Option (List UInt8) :=
  match item.dropWhile (· ≠ 0x3a) with
  | _ :: port => some port
  | [] => none

/-- The text is a decimal number that is a port. -/
def IsPort (port : List UInt8) : Prop :=
  port ≠ [] ∧ (∀ c ∈ port, 0x30 ≤ c.toNat ∧ c.toNat ≤ 0x39) ∧ decimalValue port ≤ 65535

instance (port : List UInt8) : Decidable (IsPort port) := inferInstanceAs (Decidable (_ ∧ _))

/-- The entry of an item. -/
def itemDetail (defaultPort : ℕ) (item : List UInt8) : SrvHostDetail :=
  ⟨itemHost item, (itemPort item).elim defaultPort decimalValue⟩

/-- What a list of hosts stands for. -/
def hostList (hosts : List UInt8) (defaultPort : ℕ) : Except (List UInt8) (List SrvHostDetail) :=
  let items := hosts.splitOn 0x2c
  if ∀ item ∈ items, ∀ port ∈ itemPort item, IsPort port then
    .ok (items.map (itemDetail defaultPort))
  else .error (invalidPort hosts)

section Scan

variable {hosts chars rest item port : List UInt8} {pos defaultPort : ℕ}

/-- A search stops where the characters begin. -/
theorem findFirstOf_eq :
    findFirstOf hosts chars pos = match (hosts.drop pos).dropWhile (· ∉ chars) with
      | [] => none
      | _ :: _ => some (pos + ((hosts.drop pos).takeWhile (· ∉ chars)).length) := by
  unfold findFirstOf
  generalize hosts.drop pos = rest
  induction rest with
  | nil => rfl
  | cons c rest ih =>
    rw [List.findIdx?_cons, List.dropWhile_cons, List.takeWhile_cons]
    by_cases hc : c ∈ chars
    · simp [hc]
    · simp only [hc, decide_false, Bool.false_eq_true, if_false, not_false_eq_true, decide_true,
        if_true]
      cases hdrop : rest.dropWhile (· ∉ chars) with
      | nil =>
        rw [hdrop] at ih
        rw [Option.map_map, Option.map_eq_none_iff.mpr (Option.map_eq_none_iff.mp ih)]
      | cons c' rest' =>
        rw [hdrop] at ih
        obtain ⟨n, hn, hpos⟩ := Option.map_eq_some_iff.mp ih
        rw [hn]
        apply congrArg some
        rw [List.length_cons]
        simp only at hpos ⊢
        omega

/-- The text up to the place of a search. -/
theorem hostSubstr_findFirstOf :
    hostSubstr hosts pos (findFirstOf hosts chars pos) =
      (hosts.drop pos).takeWhile (· ∉ chars) := by
  have hsplit := List.takeWhile_append_dropWhile (p := (· ∉ chars)) (l := hosts.drop pos)
  rw [findFirstOf_eq]
  cases hdrop : (hosts.drop pos).dropWhile (· ∉ chars) with
  | nil =>
    rw [hdrop, List.append_nil] at hsplit
    exact hsplit.symm
  | cons c rest =>
    simp only [hostSubstr, Nat.add_sub_cancel_left]
    generalize hfront : (hosts.drop pos).takeWhile (· ∉ chars) = front at hsplit
    rw [← hsplit, List.take_left]

/-- The item is refused for its port. -/
def itemRefused (item : List UInt8) : Bool := (itemPort item).any portRefused

/-- The entry that is made of an item. -/
def itemRead (defaultPort : ℕ) (item : List UInt8) : SrvHostDetail :=
  ⟨itemHost item, (itemPort item).elim defaultPort fun port => (strtoll port).toNat % 2 ^ 16⟩

/-- An item without a colon. -/
theorem item_plain (h : ∀ c ∈ item, c ≠ 0x3a) :
    itemRefused item = false ∧ itemRead defaultPort item = ⟨item, defaultPort⟩ := by
  have hport : itemPort item = none := by
    rw [itemPort, List.dropWhile_eq_nil_iff.mpr (by simpa using h)]
  have hhost : itemHost item = item := List.takeWhile_eq_self_iff.mpr (by simpa using h)
  rw [itemRefused, itemRead, hport, hhost]
  exact ⟨rfl, rfl⟩

/-- An item with a colon. -/
theorem item_colon (h : ∀ c ∈ item, c ≠ 0x3a) :
    itemRefused (item ++ 0x3a :: port) = portRefused port ∧
      itemRead defaultPort (item ++ 0x3a :: port) =
        ⟨item, (strtoll port).toNat % 2 ^ 16⟩ := by
  have hport : itemPort (item ++ 0x3a :: port) = some port := by
    rw [itemPort, List.dropWhile_append_of_pos (by simpa using h)]
    rfl
  have hhost : itemHost (item ++ 0x3a :: port) = item := by
    rw [itemHost, List.takeWhile_append_of_pos (by simpa using h)]
    simp
  rw [itemRefused, itemRead, hport, hhost]
  exact ⟨rfl, rfl⟩

/-- The characters in front of the first comma or colon. -/
theorem takeWhile_delimiters :
    ∀ c ∈ rest.takeWhile (· ∉ [0x2c, 0x3a]), c ≠ 0x2c ∧ c ≠ 0x3a := by
  intro c hc
  simpa using List.mem_takeWhile_imp hc

/-- The body takes the item up to the next comma. -/
theorem hostBody_eq (list : List SrvHostDetail) :
    hostBody hosts defaultPort ⟨pos, list⟩ =
      if itemRefused ((hosts.drop pos).takeWhile (· ≠ 0x2c)) then .done (.error (invalidPort hosts))
      else match (hosts.drop pos).dropWhile (· ≠ 0x2c) with
        | [] => .done (.ok (list ++ [itemRead defaultPort ((hosts.drop pos).takeWhile (· ≠ 0x2c))]))
        | _ :: _ => .next ⟨pos + ((hosts.drop pos).takeWhile (· ≠ 0x2c)).length + 1,
            list ++ [itemRead defaultPort ((hosts.drop pos).takeWhile (· ≠ 0x2c))]⟩ := by
  have hsplit := List.takeWhile_append_dropWhile (p := (· ∉ [0x2c, 0x3a])) (l := hosts.drop pos)
  have hfront := @takeWhile_delimiters (hosts.drop pos)
  have hname := @hostSubstr_findFirstOf hosts [0x2c, 0x3a] pos
  have hfind := @findFirstOf_eq hosts [0x2c, 0x3a] pos
  unfold hostBody
  simp only [hname]
  generalize (hosts.drop pos).takeWhile (· ∉ [0x2c, 0x3a]) = front at *
  cases hdrop : (hosts.drop pos).dropWhile (· ∉ [0x2c, 0x3a]) with
  | nil =>
    rw [hdrop] at hfind hsplit
    rw [List.append_nil] at hsplit
    have hitem : (hosts.drop pos).takeWhile (· ≠ 0x2c) = front := by
      rw [← hsplit]
      exact List.takeWhile_eq_self_iff.mpr fun c hc => by simpa using (hfront c hc).1
    have hend : (hosts.drop pos).dropWhile (· ≠ 0x2c) = [] := by
      rw [← hsplit]
      exact List.dropWhile_eq_nil_iff.mpr fun c hc => by simpa using (hfront c hc).1
    obtain ⟨hrefused, hread⟩ := @item_plain front defaultPort fun c hc => (hfront c hc).2
    rw [hfind, hitem, hend, hrefused, hread]
    rfl
  | cons c tail =>
    rw [hdrop] at hfind hsplit
    have hc : c = 0x2c ∨ c = 0x3a := by
      have hhead := List.head?_dropWhile_not (p := (· ∉ [0x2c, 0x3a])) (hosts.drop pos)
      rw [hdrop] at hhead
      exact or_iff_not_imp_left.mpr (by simpa using hhead)
    have hat : hosts[pos + front.length]? = some c := by
      rw [← List.getElem?_drop, ← hsplit, List.getElem?_append_right le_rfl, Nat.sub_self]
      rfl
    have htail : hosts.drop (pos + front.length + 1) = tail := by
      rw [Nat.add_assoc, ← List.drop_drop, ← hsplit, ← List.drop_drop, List.drop_left]
      rfl
    have hplain : ∀ c ∈ front, decide (c ≠ 0x2c) = true :=
      fun c hc => by simpa using (hfront c hc).1
    have htake : (hosts.drop pos).takeWhile (· ≠ 0x2c) =
        front ++ (c :: tail).takeWhile (· ≠ 0x2c) := by
      rw [← hsplit, List.takeWhile_append_of_pos hplain]
    have hrest : (hosts.drop pos).dropWhile (· ≠ 0x2c) = (c :: tail).dropWhile (· ≠ 0x2c) := by
      rw [← hsplit, List.dropWhile_append_of_pos hplain]
    rw [htake, hrest, hfind]
    simp only [hat]
    obtain rfl | rfl := hc
    · obtain ⟨hrefused, hread⟩ := @item_plain front defaultPort fun c hc => (hfront c hc).2
      have hempty : (0x2c :: tail).takeWhile (· ≠ 0x2c) = [] := by simp
      have hcomma : (0x2c :: tail).dropWhile (· ≠ 0x2c) = 0x2c :: tail := by simp
      rw [hempty, List.append_nil, hcomma, hrefused, hread]
      rfl
    · have hchars : (fun c : UInt8 => decide (c ∉ [0x2c])) = fun c => decide (c ≠ 0x2c) := by
        simp only [List.mem_singleton, ne_eq]
      have hportText := @hostSubstr_findFirstOf hosts [0x2c] (pos + front.length + 1)
      have hportEnd := @findFirstOf_eq hosts [0x2c] (pos + front.length + 1)
      rw [htail, hchars] at hportText hportEnd
      obtain ⟨hrefused, hread⟩ := @item_colon front (tail.takeWhile (· ≠ 0x2c)) defaultPort
        fun c hc => (hfront c hc).2
      have hcolon : (0x3a :: tail).takeWhile (· ≠ 0x2c) = 0x3a :: tail.takeWhile (· ≠ 0x2c) :=
        List.takeWhile_cons_of_pos (by decide)
      have hbehind : (0x3a :: tail).dropWhile (· ≠ 0x2c) = tail.dropWhile (· ≠ 0x2c) :=
        List.dropWhile_cons_of_pos (by decide)
      rw [hcolon, hbehind, hrefused, hread, if_pos rfl, hportText]
      split_ifs with hport
      · rfl
      · cases hstop : tail.dropWhile (· ≠ 0x2c) with
        | nil =>
          rw [hstop] at hportEnd
          rw [hportEnd]
          rfl
        | cons c' tail' =>
          rw [hstop] at hportEnd
          rw [hportEnd]
          simp only [nextHost, List.length_append, List.length_cons, Nat.add_assoc,
            Nat.add_comm 1]

/-- The list that is made of the items. -/
def readList (hosts : List UInt8) (defaultPort : ℕ) (items : List (List UInt8)) :
    Except (List UInt8) (List SrvHostDetail) :=
  if ∃ item ∈ items, itemRefused item = true then .error (invalidPort hosts)
  else .ok (items.map (itemRead defaultPort))

/-- The items up to a comma and behind it. -/
theorem splitOn_of_dropWhile_cons {c : UInt8} {tail : List UInt8}
    (h : rest.dropWhile (· ≠ 0x2c) = c :: tail) :
    rest.splitOn 0x2c = rest.takeWhile (· ≠ 0x2c) :: tail.splitOn 0x2c := by
  have hsplit := List.takeWhile_append_dropWhile (p := (· ≠ 0x2c)) (l := rest)
  have hc : c = 0x2c := by
    have hhead := List.head?_dropWhile_not (p := (· ≠ 0x2c)) rest
    rw [h] at hhead
    simpa using hhead
  have hnot : (0x2c : UInt8) ∉ rest.takeWhile (· ≠ 0x2c) :=
    fun hmem => by simpa using List.mem_takeWhile_imp hmem
  rw [h, hc] at hsplit
  conv_lhs => rw [← hsplit]
  exact List.splitOn_append_cons_self_of_not_mem hnot tail

/-- The last item. -/
theorem splitOn_of_dropWhile_nil (h : rest.dropWhile (· ≠ 0x2c) = []) :
    rest.splitOn 0x2c = [rest.takeWhile (· ≠ 0x2c)] := by
  have hall : ∀ c ∈ rest, decide (c ≠ 0x2c) = true := List.dropWhile_eq_nil_iff.mp h
  rw [List.takeWhile_eq_self_iff.mpr hall]
  exact List.splitOn_eq_singleton fun hmem => by simpa using hall _ hmem

/-- The list of one more item. -/
theorem readList_cons {items : List (List UInt8)} (h : itemRefused item = false) :
    readList hosts defaultPort (item :: items) =
      (readList hosts defaultPort items).map ([itemRead defaultPort item] ++ ·) := by
  unfold readList
  by_cases hrefused : ∃ item ∈ items, itemRefused item = true
  · rw [if_pos hrefused, if_pos]
    · rfl
    · obtain ⟨other, hmem, hother⟩ := hrefused
      exact ⟨other, List.mem_cons_of_mem _ hmem, hother⟩
  · rw [if_neg hrefused, if_neg]
    · rfl
    · rintro ⟨other, hmem, hother⟩
      obtain rfl | hmem := List.mem_cons.mp hmem
      · rw [h] at hother
        cases hother
      · exact hrefused ⟨other, hmem, hother⟩

/-- The loop reads the items that are left. -/
theorem returns_hostBody (list : List SrvHostDetail) :
    Returns (hostBody hosts defaultPort) ⟨pos, list⟩
      ((readList hosts defaultPort ((hosts.drop pos).splitOn 0x2c)).map (list ++ ·)) := by
  induction hlength : hosts.length - pos using Nat.strong_induction_on generalizing pos list with
  | _ n ih =>
  have hbody := @hostBody_eq hosts pos defaultPort list
  have hsum := List.takeWhile_append_dropWhile (p := (· ≠ 0x2c)) (l := hosts.drop pos)
  cases hrefused : itemRefused ((hosts.drop pos).takeWhile (· ≠ 0x2c)) with
  | true =>
    rw [hrefused, if_pos rfl] at hbody
    have hitems : ∃ item ∈ (hosts.drop pos).splitOn 0x2c, itemRefused item = true := by
      refine ⟨_, ?_, hrefused⟩
      cases hdrop : (hosts.drop pos).dropWhile (· ≠ 0x2c) with
      | nil => simp [splitOn_of_dropWhile_nil hdrop]
      | cons c tail => simp [splitOn_of_dropWhile_cons hdrop]
    rw [readList, if_pos hitems]
    exact returns_of_done hbody
  | false =>
    rw [hrefused, if_neg Bool.false_ne_true] at hbody
    cases hdrop : (hosts.drop pos).dropWhile (· ≠ 0x2c) with
    | nil =>
      rw [hdrop] at hbody
      rw [splitOn_of_dropWhile_nil hdrop, readList_cons hrefused]
      exact returns_of_done hbody
    | cons c tail =>
      rw [hdrop] at hbody hsum
      rw [splitOn_of_dropWhile_cons hdrop, readList_cons hrefused]
      generalize (hosts.drop pos).takeWhile (· ≠ 0x2c) = item at *
      have htail : hosts.drop (pos + item.length + 1) = tail := by
        rw [Nat.add_assoc, ← List.drop_drop, ← hsum, ← List.drop_drop, List.drop_left]
        rfl
      have hlt : pos < hosts.length := by
        by_contra hge
        rw [List.drop_eq_nil_of_le (by omega)] at hdrop
        cases hdrop
      have hnext := @ih (hosts.length - (pos + item.length + 1)) (by omega)
        (pos + item.length + 1) (list ++ [itemRead defaultPort item]) rfl
      rw [htail] at hnext
      rw [returns_next_iff hbody]
      cases hread : readList hosts defaultPort (tail.splitOn 0x2c) with
      | error message =>
        rw [hread] at hnext
        exact hnext
      | ok entries =>
        rw [hread] at hnext
        simpa [Except.map] using hnext

/-- Some item is refused, or the text of every port has digits only. -/
def PortsDecimal (hosts : List UInt8) : Prop :=
  (∃ item ∈ hosts.splitOn 0x2c, itemRefused item = true) ∨
    ∀ item ∈ hosts.splitOn 0x2c, ∀ port ∈ itemPort item,
      ∀ c ∈ port, 0x30 ≤ c.toNat ∧ c.toNat ≤ 0x39

/-- Digits are refused when they are no port. -/
theorem portRefused_digits (h : ∀ c ∈ port, 0x30 ≤ c.toNat ∧ c.toNat ≤ 0x39) :
    (portRefused port = false ↔ IsPort port) ∧
      (IsPort port → (strtoll port).toNat % 2 ^ 16 = decimalValue port) := by
  have hvalue : strtoll port = min (2 ^ 63 - 1) (decimalValue port : ℤ) := by
    rw [strtoll_digits h, decimalValue_eq]
  have hempty : port = [] → decimalValue port = 0 := by
    rintro rfl
    rfl
  constructor
  · unfold portRefused IsPort
    simp only [hvalue, Bool.or_eq_false_iff, Bool.and_eq_false_iff, beq_eq_false_iff_ne,
      decide_eq_false_iff_not, List.length_eq_zero_iff, ne_eq]
    constructor
    · rintro ⟨⟨hne, hmax⟩, -⟩
      refine ⟨fun hnil => ?_, h, by omega⟩
      have hzero := hempty hnil
      rw [hzero] at hne
      simp [hnil] at hne
    · rintro ⟨hne, -, hmax⟩
      exact ⟨⟨Or.inr hne, by omega⟩, by omega⟩
  · rintro ⟨-, -, hmax⟩
    rw [hvalue]
    omega

/-- A refused port is none. -/
theorem not_isPort_of_portRefused (h : portRefused port = true) : ¬ IsPort port := by
  intro hport
  rw [(portRefused_digits hport.2.1).1.mpr hport] at h
  cases h

/-- The entries of items with ports are those that are read. -/
theorem itemRead_eq (h : ∀ port ∈ itemPort item, IsPort port) :
    itemRead defaultPort item = itemDetail defaultPort item := by
  unfold itemRead itemDetail
  cases hport : itemPort item with
  | none => rfl
  | some port =>
    have hisPort := h port hport
    simp only [Option.elim_some, (portRefused_digits hisPort.2.1).2 hisPort]

/-- What is read of the items is what they stand for. -/
theorem readList_eq_hostList_iff :
    readList hosts defaultPort (hosts.splitOn 0x2c) = hostList hosts defaultPort ↔
      PortsDecimal hosts := by
  unfold readList hostList PortsDecimal
  by_cases hrefused : ∃ item ∈ hosts.splitOn 0x2c, itemRefused item = true
  · rw [if_pos hrefused]
    refine iff_of_true ?_ (.inl hrefused)
    obtain ⟨item, hmem, hitem⟩ := hrefused
    dsimp only
    rw [if_neg]
    intro hall
    cases hport : itemPort item with
    | none => rw [itemRefused, hport] at hitem; cases hitem
    | some port =>
      rw [itemRefused, hport] at hitem
      exact not_isPort_of_portRefused hitem (hall item hmem port hport)
  · rw [if_neg hrefused, or_iff_right hrefused]
    dsimp only
    constructor
    · intro h item hmem port hport
      split_ifs at h with hall
      exact (hall item hmem port hport).2.1
    · intro hdigits
      have hall : ∀ item ∈ hosts.splitOn 0x2c, ∀ port ∈ itemPort item, IsPort port := by
        intro item hmem port hport
        apply (portRefused_digits (hdigits item hmem port hport)).1.mp
        by_contra hne
        refine hrefused ⟨item, hmem, ?_⟩
        rw [itemRefused, hport]
        exact Bool.eq_true_of_not_eq_false hne
      rw [if_pos hall]
      exact congrArg Except.ok (List.map_congr_left fun item hmem => itemRead_eq (hall item hmem))

/-- `parse_host_list` reads a list of hosts as it is meant, exactly when the ports are decimal
numbers or the list is refused anyway. -/
theorem parseHostList_reads_iff (hosts : List UInt8) (defaultPort : ℕ) :
    ParsesHostList hosts defaultPort (hostList hosts defaultPort) ↔ PortsDecimal hosts := by
  have hreturns := @returns_hostBody hosts 0 defaultPort []
  have hmap : ∀ result : Except (List UInt8) (List SrvHostDetail),
      result.map ([] ++ ·) = result := by rintro (_ | _) <;> rfl
  rw [hmap, List.drop_zero] at hreturns
  rw [← @readList_eq_hostList_iff hosts defaultPort]
  constructor
  · exact fun h => hreturns.unique h
  · intro h
    rw [← h]
    exact hreturns

end Scan

/-- The port of `a:x` is taken for zero. -/
theorem parseHostList_letter_not_reads :
    ¬ ParsesHostList [0x61, 0x3a, 0x78] 3306 (hostList [0x61, 0x3a, 0x78] 3306) := by
  intro h
  have hreturns : ParsesHostList [0x61, 0x3a, 0x78] 3306 (.ok [⟨[0x61], 0⟩]) :=
    ⟨1, by decide⟩
  have hnone : ¬ IsPort [0x78] := by simp [IsPort]
  rw [hostList, if_neg fun hall => hnone (hall [0x61, 0x3a, 0x78] (by decide) [0x78] rfl)] at h
  cases hreturns.unique h

end MatrixOdbc.Driver
