import Unclosed.Standard.Package

/-!
The package `time`: instants, durations and timers.
-/

namespace Unclosed

def StandardPackage.time : StandardPackage := ⟨"time", "time.go", ofLines
  ["package time",
   "",
   "type Duration int64",
   "",
   "const (",
   "\tNanosecond  Duration = 1",
   "\tMicrosecond          = 1000 * Nanosecond",
   "\tMillisecond          = 1000 * Microsecond",
   "\tSecond               = 1000 * Millisecond",
   "\tMinute               = 60 * Second",
   "\tHour                 = 60 * Minute",
   ")",
   "",
   "func (d Duration) Seconds() float64",
   "",
   "func (d Duration) Milliseconds() int64",
   "",
   "func (d Duration) String() string",
   "",
   "type Time struct \x7b",
   "\twall uint64",
   "\x7d",
   "",
   "func Now() Time",
   "",
   "func Since(t Time) Duration",
   "",
   "func Unix(sec int64, nsec int64) Time",
   "",
   "func (t Time) Unix() int64",
   "",
   "func (t Time) Sub(u Time) Duration",
   "",
   "func (t Time) Add(d Duration) Time",
   "",
   "func (t Time) Before(u Time) bool",
   "",
   "func (t Time) After(u Time) bool",
   "",
   "func (t Time) Format(layout string) string",
   "",
   "func Sleep(d Duration)",
   "",
   "func After(d Duration) <-chan Time",
   "",
   "type Timer struct \x7b",
   "\tC <-chan Time",
   "\x7d",
   "",
   "func NewTimer(d Duration) *Timer",
   "",
   "func (t *Timer) Stop() bool",
   "",
   "func (t *Timer) Reset(d Duration) bool",
   "",
   "type Ticker struct \x7b",
   "\tC <-chan Time",
   "\x7d",
   "",
   "func NewTicker(d Duration) *Ticker",
   "",
   "func (t *Ticker) Stop()"]⟩

end Unclosed
