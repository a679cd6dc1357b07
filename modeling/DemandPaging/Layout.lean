/-!
# Layout of the managed memory

The fixed sizes that every other module relies on: one range of `pageCount`
pages of `pageSize` bytes each, backed by a swap file with one slot per page.
-/

namespace DemandPaging

/-- Bytes in one page. -/
abbrev pageSize : Nat := 4096

/-- Exponent of the page size. -/
abbrev pageShift : Nat := 12

/-- Pages in the managed range. -/
abbrev pageCount : Nat := 4096

/-- Bytes in the managed range. -/
abbrev memorySize : Nat := 16777216

/-- Bytes in the swap file: one slot for every page. -/
abbrev swapSize : Nat := memorySize

/-- Address at which the managed range is placed when it is free. -/
abbrev preferredBase : Nat := 0x20000000

/-- Machine words hold the naturals below this bound. -/
abbrev wordLimit : Nat := 18446744073709551616

/-- One more than the bytes in the longest vector. -/
abbrev capacityLimit : Nat := 9223372036854775808

/-- Interval of the default timer, in nanoseconds. -/
abbrev timeslice : Nat := 10000000

/-- Finest interval that the timer can be given, in nanoseconds. -/
abbrev timerResolution : Nat := 1000

/-- Resident pages allowed when no budget is configured. -/
abbrev defaultBudget : Nat := 64

/-- Every allocation starts at a multiple of this many bytes. -/
abbrev allocationAlignment : Nat := 8

end DemandPaging
