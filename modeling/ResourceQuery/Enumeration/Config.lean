namespace ResourceQuery.Enumeration

def defaultPageSize : Nat := 200

def defaultQueueCapacity : Nat := 1000

-- The number of items to ask for. A hint that is not positive leaves the choice to the default.
def effectivePageSize (hint : Int) : Nat :=
  if 0 < hint then hint.toNat else defaultPageSize

structure Config where
  pageSize : Int := -1
  queueCapacity : Nat := defaultQueueCapacity
  includeCount : Bool := false
  deriving DecidableEq, Repr

namespace Config

def maxElements (c : Config) : Nat :=
  effectivePageSize c.pageSize

-- Settings which differ from the defaults.
structure Choice where
  pageSize : Option Int := none
  queueCapacity : Option Nat := none
  includeCount : Option Bool := none

-- The chosen settings, as they are.
def ofChoice (c : Choice) : Config where
  pageSize := c.pageSize.getD ({ : Config }).pageSize
  queueCapacity := c.queueCapacity.getD ({ : Config }).queueCapacity
  includeCount := c.includeCount.getD ({ : Config }).includeCount

-- The chosen settings, with room for one record at least.
def build (c : Choice) : Config :=
  { ofChoice c with queueCapacity := max (ofChoice c).queueCapacity 1 }

end Config

end ResourceQuery.Enumeration
