import Unclosed.Standard.Package

/-!
The package `sync`: locks and groups.
-/

namespace Unclosed

def StandardPackage.sync : StandardPackage := ⟨"sync", "sync.go", ofLines
  ["package sync",
   "",
   "type Mutex struct \x7b",
   "\tstate int32",
   "\x7d",
   "",
   "func (m *Mutex) Lock()",
   "",
   "func (m *Mutex) Unlock()",
   "",
   "type RWMutex struct \x7b",
   "\tw Mutex",
   "\x7d",
   "",
   "func (rw *RWMutex) Lock()",
   "",
   "func (rw *RWMutex) Unlock()",
   "",
   "func (rw *RWMutex) RLock()",
   "",
   "func (rw *RWMutex) RUnlock()",
   "",
   "type WaitGroup struct \x7b",
   "\tn int64",
   "\x7d",
   "",
   "func (wg *WaitGroup) Add(delta int)",
   "",
   "func (wg *WaitGroup) Done()",
   "",
   "func (wg *WaitGroup) Wait()",
   "",
   "type Once struct \x7b",
   "\tdone uint32",
   "\x7d",
   "",
   "func (o *Once) Do(f func())"]⟩

end Unclosed
